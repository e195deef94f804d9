import Fbaodv.Proofs.TaskQueueLinks
import Mathlib.Data.List.ReduceOption

namespace Fbaodv.Proofs.TaskQueueRefinement

open Fbaodv.Foundation Fbaodv.Model LinkedPath TaskQueue TaskQueueLinks

inductive QueueCall
  | queue (p : Ptr) (t : Task)
  | atFront (p : Ptr) (t : Task)
  | get

/-- A call, with what `get_task` answers. A task is created at the address that
the caller's `kmalloc` returned, and freed once it has been handed out. -/
def QueueCall.exec (q : TaskQueue) : QueueCall → Option (List (Option Task) × TaskQueue)
  | .queue p t => do
    let q ← queueAodvTask p (q.create p t)
    some ([], q)
  | .atFront p t => do
    let q ← queueControlTaskAtFront p (q.create p t)
    some ([], q)
  | .get => do
    let (r, q) ← q.getTask
    match r with
    | none => some ([none], q)
    | some p => some ([q.task p], q.free p)

def run : List QueueCall → TaskQueue → Option (List (Option Task) × TaskQueue)
  | [], q => some ([], q)
  | c :: calls, q => do
    let (r, q) ← c.exec q
    let (rs, q) ← run calls q
    some (r ++ rs, q)

/-- `kmalloc` returns the address of no live task. -/
def QueueCall.Fresh (q : TaskQueue) : QueueCall → Prop
  | .queue p _ => q.task p = none
  | .atFront p _ => q.task p = none
  | .get => True

def AllFresh : List QueueCall → TaskQueue → Prop
  | [], _ => True
  | c :: calls, q => c.Fresh q ∧
    match c.exec q with
    | some (_, q') => AllFresh calls q'
    | none => True

def QueueCall.spec (a : ClassQueue Task) :
    QueueCall → List (Option Task) × ClassQueue Task
  | .queue _ t => ([], a.pushBack (fun t ↦ isControlTask t.type) t)
  | .atFront _ t => ([], a.pushFront (fun t ↦ isControlTask t.type) t)
  | .get => ([a.pop.1], a.pop.2)

def runSpec : List QueueCall → ClassQueue Task → List (Option Task) × ClassQueue Task
  | [], a => ([], a)
  | c :: calls, a => ((c.spec a).1 ++ (runSpec calls (c.spec a).2).1, (runSpec calls (c.spec a).2).2)

def queued : List QueueCall → List Task
  | [] => []
  | .queue _ t :: calls => t :: queued calls
  | .atFront _ t :: calls => t :: queued calls
  | .get :: calls => queued calls

/-- The abstract queue that a linked queue stands for. -/
def Refines (q : TaskQueue) (a : ClassQueue Task) : Prop :=
  ∃ l, Represents q l ∧
    a.control = (l.filter q.isControlEntry).filterMap q.task ∧
    a.data = (l.filter fun p ↦ !q.isControlEntry p).filterMap q.task

theorem queueAodvTask_refines {q : TaskQueue} {a : ClassQueue Task} (h : Refines q a)
    {p : Ptr} (hp : q.task p = none) (t : Task) :
    ∃ q', queueAodvTask p (q.create p t) = some q' ∧
      Refines q' (a.pushBack (fun t ↦ isControlTask t.type) t) := by
  obtain ⟨l, hl, hac, had⟩ := h
  obtain ⟨⟨hchain, hc⟩, hpl, hsame⟩ := hl.create hp t
  have hpt : (q.create p t).task p = some t := Function.update_self _ _ _
  have hpc : (q.create p t).prevControl p = none := Function.update_self _ _ _
  obtain ⟨q₁, h₁, hq₁, hs⟩ := linkAtBack_spec hchain (by simp [hpt]) hpl
  have he := isControlEntry_congr hs.task
  obtain ⟨q₂, h₂, hq₂, hc₂, ht⟩ := linkControlAtBack_spec hq₁ (hc.congr hs)
    (List.filter_sublist.trans (List.sublist_append_left _ _))
    (fun hm ↦ hpl (List.mem_of_mem_filter hm)) (by rw [hs.prevControl, hpc])
  have ht₂ : q₂.task = (q.create p t).task := ht.trans hs.task
  have he₂ := isControlEntry_congr ht₂
  refine ⟨q₂, by simp [queueAodvTask, h₁, h₂], l ++ [p], ⟨hq₂, ?_⟩, ?_⟩
  · rw [he₂, List.filter_append]
    rwa [he] at hc₂
  · have hep : (q.create p t).isControlEntry p = isControlTask t.type := by
      simp [isControlEntry, hpt]
    rw [he₂, ht₂]
    simp only [List.filter_append, List.filterMap_append, filterMap_congr_task hsame,
      filter_congr_task hsame, filter_not_congr_task hsame, ← hac, ← had]
    cases hct : isControlTask t.type <;> simp [ClassQueue.pushBack, hct, hep, hpt]

theorem queueControlTaskAtFront_refines {q : TaskQueue} {a : ClassQueue Task}
    (h : Refines q a) {p : Ptr} (hp : q.task p = none) (t : Task) :
    ∃ q', queueControlTaskAtFront p (q.create p t) = some q' ∧
      Refines q' (a.pushFront (fun t ↦ isControlTask t.type) t) := by
  obtain ⟨l, hl, hac, had⟩ := h
  obtain ⟨⟨hchain, hc⟩, hpl, hsame⟩ := hl.create hp t
  have hpt : (q.create p t).task p = some t := Function.update_self _ _ _
  have hpc : (q.create p t).prevControl p = none := Function.update_self _ _ _
  obtain ⟨q₁, h₁, hq₁, hs⟩ := linkAtFront_spec hchain (by simp [hpt]) hpl
  have he := isControlEntry_congr hs.task
  obtain ⟨q₂, h₂, hq₂, hc₂, ht⟩ := linkControlAtFront_spec hq₁ (hc.congr hs)
    (fun hm ↦ hpl (List.mem_of_mem_filter hm)) (by simp [hs.task, hpt])
    (by rw [hs.prevControl, hpc])
  have ht₂ : q₂.task = (q.create p t).task := ht.trans hs.task
  have he₂ := isControlEntry_congr ht₂
  refine ⟨q₂, by simp [queueControlTaskAtFront, h₁, h₂], p :: l, ⟨hq₂, ?_⟩, ?_⟩
  · rw [he₂, ← List.singleton_append, List.filter_append]
    rwa [he] at hc₂
  · have hep : (q.create p t).isControlEntry p = isControlTask t.type := by
      simp [isControlEntry, hpt]
    rw [he₂, ht₂, ← List.singleton_append]
    simp only [List.filter_append, List.filterMap_append, filterMap_congr_task hsame,
      filter_congr_task hsame, filter_not_congr_task hsame, ← hac, ← had]
    cases hct : isControlTask t.type <;> simp [ClassQueue.pushFront, hct, hep, hpt]

theorem handOut_refines {q q' : TaskQueue} {a : ClassQueue Task} {x : Ptr} {l : List Ptr}
    (hq' : Represents q' l) (ht : q'.task = q.task) (hx : x ∉ l)
    (hc : a.control = (l.filter q.isControlEntry).filterMap q.task)
    (hd : a.data = (l.filter fun p ↦ !q.isControlEntry p).filterMap q.task) :
    Refines (q'.free x) a := by
  obtain ⟨hl, hsame⟩ := hq'.free hx
  refine ⟨l, hl, ?_, ?_⟩
  · rw [filter_congr_task hsame, filterMap_congr_task hsame, ht, isControlEntry_congr ht, hc]
  · rw [filter_not_congr_task hsame, filterMap_congr_task hsame, ht, isControlEntry_congr ht, hd]

theorem getTask_refines {q : TaskQueue} {a : ClassQueue Task} (h : Refines q a) :
    ∃ q', QueueCall.get.exec q = some ([a.pop.1], q') ∧ Refines q' a.pop.2 := by
  obtain ⟨l, hl, hac, had⟩ := h
  obtain ⟨control, data⟩ := a
  subst hac had
  by_cases hctl : ∃ x ∈ l, q.isControlEntry x = true
  · obtain ⟨b, x, c, rfl, hb, hx⟩ := exists_first hctl
    obtain ⟨q', hget, hq', ht⟩ := getTask_control hl hb hx
    have hbf : b.filter q.isControlEntry = [] := List.filter_eq_nil_iff.mpr (by simpa using hb)
    obtain ⟨t, hxt⟩ := Option.isSome_iff_exists.mp (hl.chain.alive x (by simp))
    have hxn : x ∉ b ++ c := (List.nodup_cons.mp (List.nodup_middle.mp hl.chain.nodup)).1
    refine ⟨q'.free x, ?_, handOut_refines hq' ht hxn ?_ ?_⟩
    · simp [QueueCall.exec, hget, ht, ClassQueue.pop, hbf, hx, hxt]
    · simp [ClassQueue.pop, hbf, hx, hxt]
    · simp [ClassQueue.pop, hbf, hx, hxt]
  · have hno : ∀ p ∈ l, q.isControlEntry p = false := by simpa using hctl
    have hnil : l.filter q.isControlEntry = [] := List.filter_eq_nil_iff.mpr (by simpa using hno)
    have hall : (l.filter fun p ↦ !q.isControlEntry p) = l :=
      List.filter_eq_self.mpr fun p hp ↦ by simp [hno p hp]
    rw [hnil, hall]
    cases l with
    | nil =>
      have hsend : q.subEnd = none := hl.control.subEnd
      have hend : q.taskEnd = none := hl.chain.taskEnd
      exact ⟨q, by simp [QueueCall.exec, getTask, hsend, hend, ClassQueue.pop], [], hl, rfl, rfl⟩
    | cons x l =>
      obtain ⟨q', hget, hq', ht⟩ := getTask_data hl hno
      obtain ⟨t, hxt⟩ := Option.isSome_iff_exists.mp (hl.chain.alive x (by simp))
      have hno' : ∀ p ∈ l, q.isControlEntry p = false := (List.forall_mem_cons.mp hno).2
      refine ⟨q'.free x, ?_, handOut_refines hq' ht (List.nodup_cons.mp hl.chain.nodup).1 ?_ ?_⟩
      · simp [QueueCall.exec, hget, ht, hxt, ClassQueue.pop]
      · simp [ClassQueue.pop, hxt, List.filter_eq_nil_iff.mpr (by simpa using hno')]
      · have hall' : (l.filter fun p ↦ !q.isControlEntry p) = l :=
          List.filter_eq_self.mpr fun p hp ↦ by simp [hno' p hp]
        simp [ClassQueue.pop, hxt, hall']

theorem QueueCall.refines {q : TaskQueue} {a : ClassQueue Task} (h : Refines q a)
    (c : QueueCall) (hc : c.Fresh q) :
    ∃ q', c.exec q = some ((c.spec a).1, q') ∧ Refines q' (c.spec a).2 := by
  cases c with
  | queue p t =>
    obtain ⟨q', hq, hq'⟩ := queueAodvTask_refines h hc t
    exact ⟨q', by simp [exec, hq, spec], hq'⟩
  | atFront p t =>
    obtain ⟨q', hq, hq'⟩ := queueControlTaskAtFront_refines h hc t
    exact ⟨q', by simp [exec, hq, spec], hq'⟩
  | get => exact getTask_refines h

theorem run_refines (calls : List QueueCall) {q : TaskQueue} {a : ClassQueue Task}
    (h : Refines q a) (hc : AllFresh calls q) :
    ∃ q', run calls q = some ((runSpec calls a).1, q') ∧ Refines q' (runSpec calls a).2 := by
  induction calls generalizing q a with
  | nil => exact ⟨q, rfl, h⟩
  | cons c calls ih =>
    obtain ⟨hf, hc⟩ := hc
    obtain ⟨q₁, h₁, hq₁⟩ := c.refines h hf
    rw [h₁] at hc
    obtain ⟨q₂, h₂, hq₂⟩ := ih hq₁ hc
    exact ⟨q₂, by simp [run, h₁, h₂, runSpec], hq₂⟩

theorem runSpec_perm (calls : List QueueCall) (a : ClassQueue Task) :
    ((runSpec calls a).1.reduceOption ++ (runSpec calls a).2.elems).Perm
      (queued calls ++ a.elems) := by
  induction calls generalizing a with
  | nil => exact List.Perm.refl _
  | cons c calls ih =>
    cases c with
    | queue p t =>
      refine (ih _).trans ?_
      refine ((ClassQueue.pushBack_perm _ t a).append_left _).trans ?_
      exact List.perm_middle
    | atFront p t =>
      refine (ih _).trans ?_
      refine ((ClassQueue.pushFront_perm _ t a).append_left _).trans ?_
      exact List.perm_middle
    | get =>
      have hpop := (ih a.pop.2).append_left a.pop.1.toList
      simp only [runSpec, QueueCall.spec, queued, List.reduceOption_append,
        List.reduceOption_singleton, List.append_assoc]
      refine hpop.trans ((List.perm_append_comm_assoc _ _ _).trans ?_)
      exact a.pop_perm.append_left _

theorem initTaskQueue_refines : Refines initTaskQueue ClassQueue.empty :=
  ⟨[], ⟨⟨List.nodup_nil, by simp, trivial, trivial, rfl, rfl⟩, ⟨trivial, rfl, rfl⟩⟩, rfl, rfl⟩

/-- From an empty queue no call faults, `get_task` answers as the abstract
queue does, and each queued task is handed out once or still waits. -/
theorem taskQueue_refines_classQueue (calls : List QueueCall)
    (h : AllFresh calls initTaskQueue) :
    ∃ q, run calls initTaskQueue = some ((runSpec calls ClassQueue.empty).1, q) ∧
      Refines q (runSpec calls ClassQueue.empty).2 ∧
      ((runSpec calls ClassQueue.empty).1.reduceOption ++
        (runSpec calls ClassQueue.empty).2.elems).Perm (queued calls) := by
  obtain ⟨q, hq, hr⟩ := run_refines calls initTaskQueue_refines h
  refine ⟨q, hq, hr, ?_⟩
  simpa [ClassQueue.empty, ClassQueue.elems] using runSpec_perm calls ClassQueue.empty

/-- Two data tasks around two control tasks, the second of which passes the
first at the front; an address is used again after its task was handed out. -/
theorem taskQueue_refines_classQueue_four :
    let a := createTask .sendEtt 0
    let b := createTask .recvRreq 1
    let c := createTask .sendRrep 2
    let d := createTask .ettInfo 3
    let calls := [.queue 0 a, .queue 1 b, .atFront 2 c, .get, .queue 2 d, .get, .get, .get, .get]
    AllFresh calls initTaskQueue ∧
      ∃ q, run calls initTaskQueue = some ([some c, some b, some a, some d, none], q) := by
  intro a b c d calls
  have h : AllFresh calls initTaskQueue := ⟨rfl, rfl, rfl, trivial, rfl, trivial, trivial, trivial, trivial, trivial⟩
  obtain ⟨q, hq, -⟩ := taskQueue_refines_classQueue calls h
  exact ⟨h, q, hq⟩

end Fbaodv.Proofs.TaskQueueRefinement
