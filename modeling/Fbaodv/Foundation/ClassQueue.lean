import Mathlib.Data.List.Basic

namespace Fbaodv.Foundation

variable {α : Type}

/-- Two queues served in strict priority. -/
structure ClassQueue (α : Type) where
  control : List α
  data : List α

namespace ClassQueue

def empty : ClassQueue α := ⟨[], []⟩

def pushBack (isControl : α → Bool) (x : α) (q : ClassQueue α) : ClassQueue α :=
  if isControl x then { q with control := q.control ++ [x] } else { q with data := q.data ++ [x] }

def pushFront (isControl : α → Bool) (x : α) (q : ClassQueue α) : ClassQueue α :=
  if isControl x then { q with control := x :: q.control } else { q with data := x :: q.data }

def pop (q : ClassQueue α) : Option α × ClassQueue α :=
  match q.control, q.data with
  | x :: l, _ => (some x, { q with control := l })
  | [], x :: l => (some x, { q with data := l })
  | [], [] => (none, q)

def elems (q : ClassQueue α) : List α := q.control ++ q.data

theorem pushBack_perm (isControl : α → Bool) (x : α) (q : ClassQueue α) :
    (q.pushBack isControl x).elems.Perm (x :: q.elems) := by
  unfold pushBack elems
  split
  · rw [List.append_assoc, List.singleton_append]
    exact List.perm_middle
  · rw [← List.append_assoc]
    exact List.perm_append_comm

theorem pushFront_perm (isControl : α → Bool) (x : α) (q : ClassQueue α) :
    (q.pushFront isControl x).elems.Perm (x :: q.elems) := by
  unfold pushFront elems
  split
  · exact List.Perm.refl _
  · exact List.perm_middle

/-- Serving loses nothing and duplicates nothing. -/
theorem pop_perm (q : ClassQueue α) : (q.pop.1.toList ++ q.pop.2.elems).Perm q.elems := by
  obtain ⟨_ | ⟨x, c⟩, _ | ⟨y, d⟩⟩ := q <;> exact List.Perm.refl _

theorem pop_mem {x : α} {q q' : ClassQueue α} (h : q.pop = (some x, q')) : x ∈ q.elems := by
  have hperm := q.pop_perm
  rw [h] at hperm
  exact hperm.mem_iff.mp List.mem_cons_self

theorem pop_subset {x : α} {q q' : ClassQueue α} (h : q.pop = (some x, q')) : q'.elems ⊆ q.elems := by
  have hperm := q.pop_perm
  rw [h] at hperm
  exact fun y hy ↦ hperm.mem_iff.mp (List.mem_append_right _ hy)

theorem mem_pushBack {isControl : α → Bool} {x y : α} {q : ClassQueue α} :
    y ∈ (q.pushBack isControl x).elems ↔ y = x ∨ y ∈ q.elems := by
  rw [(pushBack_perm isControl x q).mem_iff, List.mem_cons]

theorem mem_pushFront {isControl : α → Bool} {x y : α} {q : ClassQueue α} :
    y ∈ (q.pushFront isControl x).elems ↔ y = x ∨ y ∈ q.elems := by
  rw [(pushFront_perm isControl x q).mem_iff, List.mem_cons]

/-- The queue without the elements that fail a test. -/
def filter (p : α → Bool) (q : ClassQueue α) : ClassQueue α := ⟨q.control.filter p, q.data.filter p⟩

theorem filter_pushBack {isControl p : α → Bool} {x : α} (h : p x = true) (q : ClassQueue α) :
    (q.pushBack isControl x).filter p = (q.filter p).pushBack isControl x := by
  unfold pushBack filter
  split <;> simp [h]

theorem filter_pushFront {isControl p : α → Bool} {x : α} (h : p x = true) (q : ClassQueue α) :
    (q.pushFront isControl x).filter p = (q.filter p).pushFront isControl x := by
  unfold pushFront filter
  split <;> simp [h]

theorem filter_pushBack_of_not {isControl p : α → Bool} {x : α} (h : p x = false) (q : ClassQueue α) :
    (q.pushBack isControl x).filter p = q.filter p := by
  unfold pushBack filter
  split <;> simp [h]

theorem pop_filter_none {p : α → Bool} {q q' : ClassQueue α} (h : q.pop = (none, q')) :
    q' = q ∧ (q.filter p).pop = (none, q.filter p) := by
  obtain ⟨_ | ⟨x, c⟩, _ | ⟨y, d⟩⟩ := q
  · obtain rfl := (Prod.mk.inj h).2
    exact ⟨rfl, rfl⟩
  all_goals simp [pop] at h

/-- An element that passes is served next also when those that fail are gone. -/
theorem pop_filter {p : α → Bool} {q q' : ClassQueue α} {x : α} (h : q.pop = (some x, q'))
    (hx : p x = true) : (q.filter p).pop = (some x, q'.filter p) := by
  obtain ⟨_ | ⟨y, c⟩, _ | ⟨z, d⟩⟩ := q
  · simp [pop] at h
  all_goals
    simp only [pop, Prod.mk.injEq, Option.some.injEq] at h
    obtain ⟨rfl, rfl⟩ := h
    simp [pop, filter, hx]

theorem pop_filter_of_not {p : α → Bool} {q q' : ClassQueue α} {x : α} (h : q.pop = (some x, q'))
    (hx : p x = false) : q'.filter p = q.filter p := by
  obtain ⟨_ | ⟨y, c⟩, _ | ⟨z, d⟩⟩ := q
  · simp [pop] at h
  all_goals
    simp only [pop, Prod.mk.injEq, Option.some.injEq] at h
    obtain ⟨rfl, rfl⟩ := h
    simp [filter, hx]

section Map

variable {β : Type} (f : α → β) {isControl : α → Bool} {isControl' : β → Bool}

/-- The queue with every element seen through `f`. -/
def map (q : ClassQueue α) : ClassQueue β := ⟨q.control.map f, q.data.map f⟩

theorem map_pushBack (hf : ∀ x, isControl' (f x) = isControl x) (x : α) (q : ClassQueue α) :
    (q.pushBack isControl x).map f = (q.map f).pushBack isControl' (f x) := by
  unfold pushBack map
  rw [hf]
  split <;> simp

theorem map_pushFront (hf : ∀ x, isControl' (f x) = isControl x) (x : α) (q : ClassQueue α) :
    (q.pushFront isControl x).map f = (q.map f).pushFront isControl' (f x) := by
  unfold pushFront map
  rw [hf]
  split <;> simp

theorem pop_map (q : ClassQueue α) : (q.map f).pop = (q.pop.1.map f, q.pop.2.map f) := by
  obtain ⟨_ | ⟨x, c⟩, _ | ⟨y, d⟩⟩ := q <;> rfl

end Map

end ClassQueue

end Fbaodv.Foundation
