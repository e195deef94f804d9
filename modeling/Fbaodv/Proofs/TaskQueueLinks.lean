import Fbaodv.Model.TaskQueue
import Fbaodv.Foundation.LinkedPath
import Mathlib.Data.List.Nodup

namespace Fbaodv.Proofs.TaskQueueLinks

open Fbaodv.Foundation Fbaodv.Model LinkedPath TaskQueue

/-- The addresses of the queued tasks in the order in which `prev` leads
through them from `task_end`. -/
structure Chain (q : TaskQueue) (l : List Ptr) : Prop where
  nodup : l.Nodup
  alive : ∀ p ∈ l, (q.task p).isSome
  prev : LinkedPath.Path q.prev l none
  next : BackPath q.next l
  taskEnd : q.taskEnd = l.head?
  taskQ : q.taskQ = l.getLast?

structure ControlChain (q : TaskQueue) (l : List Ptr) : Prop where
  prevControl : LinkedPath.Path q.prevControl l none
  subEnd : q.subEnd = l.head?
  subQ : q.subQ = l.getLast?

structure Represents (q : TaskQueue) (l : List Ptr) : Prop where
  chain : Chain q l
  control : ControlChain q (l.filter q.isControlEntry)

/-- Two queues that differ in the links of the main chain only. -/
structure SameControl (q q' : TaskQueue) : Prop where
  task : q'.task = q.task
  prevControl : q'.prevControl = q.prevControl
  subEnd : q'.subEnd = q.subEnd
  subQ : q'.subQ = q.subQ

theorem isControlEntry_congr {q q' : TaskQueue} (h : q'.task = q.task) :
    q'.isControlEntry = q.isControlEntry := by
  funext p
  rw [isControlEntry, isControlEntry, h]

section Stores

variable {q : TaskQueue} {p : Ptr} {v : Option Ptr}

theorem deref_some (h : (q.task p).isSome) : q.deref (some p) = some p := by
  simp [deref, h]

theorem setNext_some (h : (q.task p).isSome) :
    q.setNext (some p) v = some { q with next := Function.update q.next p v } := by
  simp [setNext, deref_some h]

theorem setPrev_some (h : (q.task p).isSome) :
    q.setPrev (some p) v = some { q with prev := Function.update q.prev p v } := by
  simp [setPrev, deref_some h]

theorem setPrevControl_some (h : (q.task p).isSome) :
    q.setPrevControl (some p) v =
      some { q with prevControl := Function.update q.prevControl p v } := by
  simp [setPrevControl, deref_some h]

end Stores

theorem not_mem_of_nodup_concat {α : Type} {l : List α} {a : α} (h : (l ++ [a]).Nodup) : a ∉ l :=
  fun ha ↦ List.disjoint_of_nodup_append h ha List.mem_cons_self

theorem linkAtBack_spec {q : TaskQueue} {l : List Ptr} {p : Ptr} (h : Chain q l)
    (hp : (q.task p).isSome) (hf : p ∉ l) :
    ∃ q', linkAtBack p q = some q' ∧ Chain q' (l ++ [p]) ∧ SameControl q q' := by
  obtain ⟨hnd, halive, hprev, hnext, hend, hq⟩ := h
  rcases List.eq_nil_or_concat l with rfl | ⟨l, z, rfl⟩
  · simp only [List.head?_nil, List.getLast?_nil] at hend hq
    refine ⟨_, by simp [linkAtBack, setNext_some, setPrev_some, hp, hend, hq]; rfl, ?_, ?_⟩
    · constructor <;> simp [LinkedPath.Path, BackPath, hp]
    · constructor <;> rfl
  · rw [List.concat_eq_append] at *
    have hz : (q.task z).isSome := halive z (by simp)
    have hne : q.taskEnd ≠ none := by rw [hend]; cases l <;> simp
    rw [List.getLast?_append_of_ne_nil _ (by simp), List.getLast?_singleton] at hq
    have hzl : z ∉ l := not_mem_of_nodup_concat hnd
    refine ⟨_, by simp [linkAtBack, setNext_some, setPrev_some, hp, hz, hne, hq]; rfl, ?_, ?_⟩
    · constructor
      · exact List.nodup_append_comm.mpr (List.nodup_cons.mpr ⟨hf, hnd⟩)
      · simpa [or_imp, forall_and, hp] using halive
      · rw [path_append]
        refine ⟨(hprev.update hf).update_last hzl, ?_⟩
        have hpz : p ≠ z := by rintro rfl; simp at hf
        simp [LinkedPath.Path, hpz]
      · rw [backPath_append]
        refine ⟨hnext.update fun h ↦ hf (List.mem_of_mem_tail h), ?_, trivial⟩
        simp
      · cases l <;> simpa using hend
      · simp
    · constructor <;> rfl

theorem linkAtFront_spec {q : TaskQueue} {l : List Ptr} {p : Ptr} (h : Chain q l)
    (hp : (q.task p).isSome) (hf : p ∉ l) :
    ∃ q', linkAtFront p q = some q' ∧ Chain q' (p :: l) ∧ SameControl q q' := by
  obtain ⟨hnd, halive, hprev, hnext, hend, hq⟩ := h
  cases l with
  | nil =>
    simp only [List.head?_nil, List.getLast?_nil] at hend hq
    refine ⟨_, by simp [linkAtFront, setNext_some, setPrev_some, hp, hend, hq]; rfl, ?_, ?_⟩
    · constructor <;> simp [LinkedPath.Path, BackPath, hp]
    · constructor <;> rfl
  | cons z l =>
    have hz : (q.task z).isSome := halive z (by simp)
    have hne : q.taskQ ≠ none := by simp [hq]
    rw [List.head?_cons] at hend
    have hpl : p ∉ l := fun h ↦ hf (List.mem_cons_of_mem _ h)
    refine ⟨_, by simp [linkAtFront, setNext_some, setPrev_some, hp, hz, hne, hend]; rfl, ?_, ?_⟩
    · constructor
      · exact List.nodup_cons.mpr ⟨hf, hnd⟩
      · simpa [or_imp, forall_and, hp] using halive
      · rw [path_cons]
        exact ⟨by simp, hprev.update hf⟩
      · rw [backPath_cons]
        refine ⟨by simp, BackPath.update_head ?_ (List.nodup_cons.mp hnd).1⟩
        exact hnext.update hpl
      · simp
      · simpa using hq
    · constructor <;> rfl

theorem Chain.congr {q q' : TaskQueue} {l : List Ptr} (h : Chain q l) (ht : q'.task = q.task)
    (hn : q'.next = q.next) (hp : q'.prev = q.prev) (he : q'.taskEnd = q.taskEnd)
    (hq : q'.taskQ = q.taskQ) : Chain q' l := by
  constructor
  · exact h.nodup
  · rw [ht]
    exact h.alive
  · rw [hp]
    exact h.prev
  · rw [hn]
    exact h.next
  · rw [he]
    exact h.taskEnd
  · rw [hq]
    exact h.taskQ

theorem ControlChain.congr {q q' : TaskQueue} {l : List Ptr} (h : ControlChain q l)
    (hs : SameControl q q') : ControlChain q' l := by
  constructor
  · rw [hs.prevControl]
    exact h.prevControl
  · rw [hs.subEnd]
    exact h.subEnd
  · rw [hs.subQ]
    exact h.subQ

theorem linkControlAtBack_spec {q : TaskQueue} {l c : List Ptr} {p : Ptr} (h : Chain q l)
    (hc : ControlChain q c) (hcl : c.Sublist l) (hf : p ∉ c) (hp : q.prevControl p = none) :
    ∃ q', linkControlAtBack p q = some q' ∧ Chain q' l ∧
      ControlChain q' (c ++ [p].filter q.isControlEntry) ∧ q'.task = q.task := by
  obtain ⟨hprev, hend, hq⟩ := hc
  cases hctl : q.isControlEntry p
  · refine ⟨q, by simp [linkControlAtBack, hctl], h, ?_, rfl⟩
    simpa [hctl] using ⟨hprev, hend, hq⟩
  · have hnd : c.Nodup := h.nodup.sublist hcl
    rcases List.eq_nil_or_concat c with rfl | ⟨c, z, rfl⟩
    · refine ⟨_, by simp [linkControlAtBack, hctl, hend, hq]; rfl, ?_, ?_, ?_⟩
      · exact h.congr rfl rfl rfl rfl rfl
      · constructor <;> simp [LinkedPath.Path, hctl, hp]
      · rfl
    · rw [List.concat_eq_append] at *
      have hz : (q.task z).isSome := h.alive z (hcl.subset (by simp))
      have hzc : z ∉ c := not_mem_of_nodup_concat hnd
      rw [List.getLast?_append_of_ne_nil _ (by simp), List.getLast?_singleton] at hq
      refine ⟨_, by simp [linkControlAtBack, setPrevControl_some, hctl, hq, hz]; rfl, ?_, ?_, ?_⟩
      · exact h.congr rfl rfl rfl rfl rfl
      · constructor
        · rw [path_append]
          have hpz : p ≠ z := by rintro rfl; simp at hf
          simpa [hctl, LinkedPath.Path, hpz, hp] using hprev.update_last hzc
        · cases c <;> simpa using hend
        · simp [hctl]
      · rfl

theorem linkControlAtFront_spec {q : TaskQueue} {l c : List Ptr} {p : Ptr} (h : Chain q l)
    (hc : ControlChain q c) (hf : p ∉ c) (hp : (q.task p).isSome) (hpc : q.prevControl p = none) :
    ∃ q', linkControlAtFront p q = some q' ∧ Chain q' l ∧
      ControlChain q' ([p].filter q.isControlEntry ++ c) ∧ q'.task = q.task := by
  obtain ⟨hprev, hend, hq⟩ := hc
  cases hctl : q.isControlEntry p
  · refine ⟨q, by simp [linkControlAtFront, hctl], h, ?_, rfl⟩
    simpa [hctl] using ⟨hprev, hend, hq⟩
  · cases c with
    | nil =>
      refine ⟨_, by simp [linkControlAtFront, hctl, hend, hq]; rfl, ?_, ?_, ?_⟩
      · exact h.congr rfl rfl rfl rfl rfl
      · constructor <;> simp [LinkedPath.Path, hctl, hpc]
      · rfl
    | cons z c =>
      rw [List.head?_cons] at hend
      refine ⟨_, by simp [linkControlAtFront, setPrevControl_some, hctl, hend, hp]; rfl, ?_, ?_, ?_⟩
      · exact h.congr rfl rfl rfl rfl rfl
      · constructor
        · simp only [hctl, List.filter_cons_of_pos, List.filter_nil, List.singleton_append]
          rw [path_cons]
          exact ⟨by simp, hprev.update hf⟩
        · simp [hctl]
        · simpa [hctl] using hq
      · rfl

theorem popEnd_spec {q : TaskQueue} {x y : Ptr} {l : List Ptr} (h : Chain q (x :: y :: l)) :
    ∃ q', popEnd q = some q' ∧ Chain q' (y :: l) ∧ SameControl q q' := by
  obtain ⟨hnd, halive, hprev, hnext, hend, hq⟩ := h
  have hx : (q.task x).isSome := halive x List.mem_cons_self
  rw [List.head?_cons] at hend
  obtain ⟨hxy, hprev⟩ := path_cons.mp hprev
  refine ⟨_, by simp [popEnd, hend, deref_some hx]; rfl, ?_, ?_⟩
  · constructor
    · exact (List.nodup_cons.mp hnd).2
    · exact fun p hp ↦ halive p (List.mem_cons_of_mem _ hp)
    · exact hprev
    · exact (backPath_cons.mp hnext).2
    · simpa using hxy
    · simpa using hq
  · constructor <;> rfl

theorem popBack_spec {q : TaskQueue} {x y : Ptr} {l : List Ptr} (h : Chain q (l ++ [y] ++ [x])) :
    ∃ q', popBack q = some q' ∧ Chain q' (l ++ [y]) ∧ SameControl q q' := by
  obtain ⟨hnd, halive, hprev, hnext, hend, hq⟩ := h
  have hx : (q.task x).isSome := halive x (by simp)
  have hy : (q.task y).isSome := halive y (by simp)
  have hnd' : (l ++ [y]).Nodup := hnd.of_append_left
  have hxy : q.next x = some y := (backPath_append.mp hnext).2.1 y (by simp) x (by simp)
  rw [List.getLast?_append_of_ne_nil _ (by simp), List.getLast?_singleton] at hq
  refine ⟨_, by simp [popBack, hq, deref_some hx, hxy, setPrev_some, hy]; rfl, ?_, ?_⟩
  · constructor
    · exact hnd'
    · exact fun p hp ↦ halive p (List.mem_append_left _ hp)
    · exact (path_append.mp hprev).1.update_last (not_mem_of_nodup_concat hnd')
    · exact (backPath_append.mp hnext).1
    · cases l <;> simpa using hend
    · simp
  · constructor <;> rfl

theorem unlink_spec {q : TaskQueue} {x y z : Ptr} {a b : List Ptr}
    (h : Chain q (a ++ [y] ++ x :: z :: b)) :
    ∃ q', unlink (some x) q = some q' ∧ Chain q' (a ++ [y] ++ z :: b) ∧ SameControl q q' := by
  obtain ⟨hnd, halive, hprev, hnext, hend, hq⟩ := h
  have hx : (q.task x).isSome := halive x (by simp)
  have hy : (q.task y).isSome := halive y (by simp)
  have hz : (q.task z).isSome := halive z (by simp)
  obtain ⟨hpa, hpx⟩ := path_append.mp hprev
  obtain ⟨hxz, hpz⟩ := path_cons.mp hpx
  obtain ⟨hna, hyx, hnx⟩ := backPath_append.mp hnext
  obtain ⟨hzx, hnz⟩ := backPath_cons.mp hnx
  have hnxy : q.next x = some y := hyx y (by simp) x (by simp)
  have hpxz : q.prev x = some z := by simpa using hxz
  obtain ⟨hnda, hndb, hdis⟩ := List.nodup_append.mp hnd
  obtain ⟨hxb, hndb⟩ := List.nodup_cons.mp hndb
  obtain ⟨hzb, -⟩ := List.nodup_cons.mp hndb
  refine ⟨_, by simp [unlink, deref_some hx, hpxz, hnxy, setNext_some, setPrev_some, hy, hz]; rfl,
    ?_, ?_⟩
  · constructor
    · exact hnd.sublist (List.Sublist.append_left (List.sublist_cons_self _ _) _)
    · intro p hp
      refine halive p ?_
      simp only [List.mem_append, List.mem_cons] at hp ⊢
      tauto
    · rw [path_append]
      refine ⟨hpa.update_last (not_mem_of_nodup_concat hnda), hpz.update ?_⟩
      intro hyb
      exact hdis y (by simp) y (List.mem_cons_of_mem _ hyb) rfl
    · rw [backPath_append]
      refine ⟨hna.update ?_, by simp, hnz.update_head hzb⟩
      intro hza
      exact hdis z (List.mem_of_mem_tail hza) z (by simp) rfl
    · cases a <;> simpa using hend
    · rw [hq]
      simp [List.getLast?_append]
  · constructor <;> rfl

theorem Chain.taskEnd_ne {q : TaskQueue} {x y : Ptr} {a b : List Ptr}
    (h : Chain q (a ++ [y] ++ x :: b)) : q.taskEnd ≠ some x := by
  intro he
  rw [h.taskEnd, List.append_assoc] at he
  refine List.disjoint_of_nodup_append h.nodup ?_ List.mem_cons_self
  exact List.mem_of_mem_head? (by cases a <;> simpa using he)

theorem Chain.taskQ_ne {q : TaskQueue} {x z : Ptr} {a b : List Ptr}
    (h : Chain q (a ++ x :: z :: b)) : q.taskQ ≠ some x := by
  intro he
  rw [h.taskQ, List.getLast?_append_of_ne_nil _ (by simp), List.getLast?_cons_cons] at he
  exact (List.nodup_cons.mp h.nodup.of_append_right).1 (List.mem_of_getLast? he)

/-- The task `x` at `sub_end` leaves the main chain, when it is not its last
task. -/
theorem unlinkEnd_spec {q : TaskQueue} {x z : Ptr} {a b : List Ptr}
    (h : Chain q (a ++ x :: z :: b)) (hx : q.subEnd = some x) :
    ∃ q', (q.taskEnd = q.subEnd ∧ q.popEnd = some q' ∨
        q.taskEnd ≠ q.subEnd ∧ q.unlink q.subEnd = some q') ∧
      Chain q' (a ++ z :: b) ∧ SameControl q q' := by
  rw [hx]
  rcases List.eq_nil_or_concat a with rfl | ⟨a, y, rfl⟩
  · obtain ⟨q', hpop, hq'⟩ := popEnd_spec h
    exact ⟨q', Or.inl ⟨h.taskEnd, hpop⟩, hq'⟩
  · rw [List.concat_eq_append] at *
    obtain ⟨q', hun, hq'⟩ := unlink_spec h
    exact ⟨q', Or.inr ⟨h.taskEnd_ne, hun⟩, hq'⟩

/-- Serving the task `x` at `sub_end`, wherever it stands in the main chain. -/
theorem getControlTask_spec {q : TaskQueue} {x : Ptr} {a b c : List Ptr}
    (h : Chain q (a ++ x :: b)) (hc : ControlChain q (x :: c)) (hcb : c.Sublist b) :
    ∃ q', getControlTask q = some q' ∧ Chain q' (a ++ b) ∧ ControlChain q' c ∧
      q'.task = q.task := by
  obtain ⟨hpath, hsend, hsq⟩ := hc
  obtain ⟨hxc, hctl⟩ := path_cons.mp hpath
  have hx : (q.task x).isSome := h.alive x (by simp)
  have hxb : x ∉ b := (List.nodup_cons.mp h.nodup.of_append_right).1
  rw [List.head?_cons] at hsend
  cases c with
  | nil =>
    rw [List.getLast?_singleton] at hsq
    have hempty : ∀ q' : TaskQueue, ControlChain { q' with subQ := none, subEnd := none } [] :=
      fun q' ↦ ⟨trivial, rfl, rfl⟩
    cases b with
    | nil =>
      have hq : q.taskQ = some x := by simpa using h.taskQ
      rcases List.eq_nil_or_concat a with rfl | ⟨a, y, rfl⟩
      · have hend : q.taskEnd = some x := h.taskEnd
        refine ⟨{ q with taskQ := none, taskEnd := none, subQ := none, subEnd := none },
          by simp [getControlTask, hsend, hsq, hend, hq], ?_, ⟨trivial, rfl, rfl⟩, rfl⟩
        constructor <;> simp [LinkedPath.Path, BackPath]
      · rw [List.concat_eq_append] at *
        obtain ⟨q', hpop, hq', hs⟩ := popBack_spec h
        refine ⟨{ q' with subQ := none, subEnd := none }, ?_, ?_, hempty q', hs.task⟩
        · simp [getControlTask, hsend, hsq, h.taskEnd_ne, hq, hpop]
        · rw [List.append_nil]
          exact hq'.congr rfl rfl rfl rfl rfl
    | cons z b =>
      obtain ⟨q', hun, hq', hs⟩ := unlinkEnd_spec h hsend
      refine ⟨{ q' with subQ := none, subEnd := none }, ?_, hq'.congr rfl rfl rfl rfl rfl,
        hempty q', hs.task⟩
      have hq := h.taskQ_ne
      rw [hsend] at hun
      rcases hun with ⟨hend, hpop⟩ | ⟨hend, hun⟩
      · simp [getControlTask, hsend, hsq, hend, hq.symm, hpop]
      · simp [getControlTask, hsend, hsq, hend, hq, hun]
  | cons w c =>
    have hb : b ≠ [] := by
      rintro rfl
      simp at hcb
    obtain ⟨z, b, rfl⟩ := List.exists_cons_of_ne_nil hb
    obtain ⟨q', hun, hq', hs⟩ := unlinkEnd_spec h hsend
    have hne : q.subEnd ≠ q.subQ := by
      rw [hsend, hsq, List.getLast?_cons_cons]
      intro he
      exact hxb (hcb.subset (List.mem_of_getLast? he.symm))
    have hpx : q'.prevControl x = some w := by simpa [hs.prevControl] using hxc
    refine ⟨{ q' with subEnd := some w }, ?_, hq'.congr rfl rfl rfl rfl rfl, ?_, hs.task⟩
    · have hx' : (q'.task x).isSome := by rwa [hs.task]
      have hsend' := hs.subEnd.trans hsend
      rcases hun with ⟨hend, hpop⟩ | ⟨hend, hun⟩
      · simp [getControlTask, hne, hend, hpop, hsend', deref_some hx', hpx]
      · simp [getControlTask, hne, hend, hun, hsend', deref_some hx', hpx]
    · refine ⟨?_, rfl, ?_⟩
      · rw [hs.prevControl]
        exact hctl
      · rw [hs.subQ, hsq, List.getLast?_cons_cons]

theorem getTask_control {q : TaskQueue} {x : Ptr} {a b : List Ptr}
    (h : Represents q (a ++ x :: b)) (ha : ∀ p ∈ a, q.isControlEntry p = false)
    (hx : q.isControlEntry x = true) :
    ∃ q', getTask q = some (some x, q') ∧ Represents q' (a ++ b) ∧ q'.task = q.task := by
  obtain ⟨hchain, hc⟩ := h
  have ha : a.filter q.isControlEntry = [] := List.filter_eq_nil_iff.mpr (by simpa using ha)
  rw [List.filter_append, ha, List.nil_append, List.filter_cons_of_pos hx] at hc
  have hend : q.subEnd = some x := hc.subEnd
  obtain ⟨q', hget, hq', hc', ht⟩ := getControlTask_spec hchain hc List.filter_sublist
  refine ⟨q', by simp [getTask, hend, hget], ⟨hq', ?_⟩, ht⟩
  rw [isControlEntry_congr ht, List.filter_append, ha]
  exact hc'

theorem getTask_data {q : TaskQueue} {x : Ptr} {l : List Ptr} (h : Represents q (x :: l))
    (hl : ∀ p ∈ x :: l, q.isControlEntry p = false) :
    ∃ q', getTask q = some (some x, q') ∧ Represents q' l ∧ q'.task = q.task := by
  obtain ⟨hchain, hc⟩ := h
  have hnil : ∀ l' : List Ptr, l' ⊆ x :: l → l'.filter q.isControlEntry = [] :=
    fun l' hs ↦ List.filter_eq_nil_iff.mpr fun p hp ↦ by simp [hl p (hs hp)]
  rw [hnil _ (List.Subset.refl _)] at hc
  have hsend : q.subEnd = none := hc.subEnd
  have hend : q.taskEnd = some x := hchain.taskEnd
  cases l with
  | nil =>
    have hq : q.taskQ = some x := hchain.taskQ
    refine ⟨{ q with taskQ := none, taskEnd := none }, by simp [getTask, hsend, hend, hq],
      ⟨?_, hc.congr ⟨rfl, rfl, rfl, rfl⟩⟩, rfl⟩
    constructor <;> simp [LinkedPath.Path, BackPath]
  | cons y l =>
    have hne : q.taskQ ≠ some x := Chain.taskQ_ne (a := []) hchain
    obtain ⟨q', hpop, hq', hs⟩ := popEnd_spec hchain
    refine ⟨q', by simp [getTask, hsend, hend, hne.symm, hpop], ⟨hq', ?_⟩, hs.task⟩
    rw [isControlEntry_congr hs.task, hnil _ (List.subset_cons_self _ _)]
    exact hc.congr hs

section Agree

variable {q q' : TaskQueue} {l : List Ptr}

theorem filter_congr_task (h : ∀ p ∈ l, q'.task p = q.task p) :
    l.filter q'.isControlEntry = l.filter q.isControlEntry := by
  apply List.filter_congr
  intro p hp
  rw [isControlEntry, isControlEntry, h p hp]

theorem filter_not_congr_task (h : ∀ p ∈ l, q'.task p = q.task p) :
    (l.filter fun p ↦ !q'.isControlEntry p) = l.filter fun p ↦ !q.isControlEntry p := by
  apply List.filter_congr
  intro p hp
  rw [isControlEntry, isControlEntry, h p hp]

theorem filterMap_congr_task (h : ∀ p ∈ l, q'.task p = q.task p) (f : Ptr → Bool) :
    (l.filter f).filterMap q'.task = (l.filter f).filterMap q.task := by
  apply List.filterMap_congr
  intro p hp
  exact h p (List.mem_of_mem_filter hp)

end Agree

theorem Represents.create {q : TaskQueue} {l : List Ptr} (h : Represents q l) {p : Ptr}
    (hp : q.task p = none) (t : Task) :
    Represents (q.create p t) l ∧ p ∉ l ∧ ∀ x ∈ l, (q.create p t).task x = q.task x := by
  have hpl : p ∉ l := fun hl ↦ by simpa [hp] using h.chain.alive p hl
  have hsame : ∀ x ∈ l, (q.create p t).task x = q.task x := by
    intro x hx
    refine Function.update_of_ne ?_ _ _
    rintro rfl
    exact hpl hx
  refine ⟨⟨?_, ?_⟩, hpl, hsame⟩
  · obtain ⟨hnd, halive, hprev, hnext, hend, hq⟩ := h.chain
    constructor
    · exact hnd
    · intro x hx
      rw [hsame x hx]
      exact halive x hx
    · exact hprev.update hpl
    · exact hnext.update fun h ↦ hpl (List.mem_of_mem_tail h)
    · exact hend
    · exact hq
  · rw [filter_congr_task hsame]
    obtain ⟨hctl, hsend, hsq⟩ := h.control
    exact ⟨hctl.update fun h ↦ hpl (List.mem_of_mem_filter h), hsend, hsq⟩

theorem Represents.free {q : TaskQueue} {l : List Ptr} (h : Represents q l) {p : Ptr}
    (hpl : p ∉ l) : Represents (q.free p) l ∧ ∀ x ∈ l, (q.free p).task x = q.task x := by
  have hsame : ∀ x ∈ l, (q.free p).task x = q.task x := by
    intro x hx
    refine Function.update_of_ne ?_ _ _
    rintro rfl
    exact hpl hx
  refine ⟨⟨?_, ?_⟩, hsame⟩
  · obtain ⟨hnd, halive, hprev, hnext, hend, hq⟩ := h.chain
    refine ⟨hnd, fun x hx ↦ ?_, hprev, hnext, hend, hq⟩
    rw [hsame x hx]
    exact halive x hx
  · rw [filter_congr_task hsame]
    exact ⟨h.control.prevControl, h.control.subEnd, h.control.subQ⟩

theorem exists_first {α : Type} {f : α → Bool} {l : List α} (h : ∃ x ∈ l, f x = true) :
    ∃ a x b, l = a ++ x :: b ∧ (∀ y ∈ a, f y = false) ∧ f x = true := by
  obtain ⟨x, hx⟩ := Option.isSome_iff_exists.mp (List.find?_isSome.mpr h)
  obtain ⟨hfx, a, b, rfl, ha⟩ := List.find?_eq_some_iff_append.mp hx
  exact ⟨a, x, b, rfl, fun y hy ↦ by simpa using ha y hy, hfx⟩

end Fbaodv.Proofs.TaskQueueLinks
