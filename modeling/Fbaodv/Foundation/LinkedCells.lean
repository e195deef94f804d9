import Fbaodv.Foundation.DoublyLinked
import Fbaodv.Foundation.OrderedList

namespace Fbaodv.Foundation.LinkedCells

open DoublyLinked OrderedList

variable {β : Type}

/-- Cells in memory, each with two links. At an address without a cell nothing
is allocated. -/
structure Cells (β : Type) where
  links : Links ℕ
  cell : ℕ → Option β

namespace Cells

/-- Follow the links while the cells pass a test: the last cell that passed it
and the first that does not. `none` is the use of a pointer without a cell, or
more turns than allowed. -/
def walk (go : β → Bool) : ℕ → Option ℕ → Option ℕ → Cells β → Option (Option ℕ × Option ℕ)
  | _, prev, none, _ => some (prev, none)
  | 0, _, some _, _ => none
  | turns + 1, prev, some p, c => do
    let x ← c.cell p
    if go x then walk go turns (some p) (c.links.next p) c else some (prev, some p)

/-- Search the cells that pass a test for a hit. -/
def search (go hit : β → Bool) : ℕ → Option ℕ → Cells β → Option (Option ℕ)
  | _, none, _ => some none
  | 0, some _, _ => none
  | turns + 1, some p, c => do
    let x ← c.cell p
    if go x then
      if hit x then some (some p) else search go hit turns (c.links.next p) c
    else some none

/-- A new cell, with null links. -/
def alloc (p : ℕ) (x : β) (c : Cells β) : Cells β where
  links := { c.links with
    next := Function.update c.links.next p none
    prev := Function.update c.links.prev p none }
  cell := Function.update c.cell p (some x)

/-- Change a cell; `none` when there is none. -/
def modify (p : ℕ) (f : β → β) (c : Cells β) : Option (Cells β) := do
  let x ← c.cell p
  some { c with cell := Function.update c.cell p (some (f x)) }

end Cells

/-- The links lead through these cells, with these values. -/
structure Chained (c : Cells β) (zs : List (ℕ × β)) : Prop where
  links : Represents c.links (zs.map Prod.fst)
  cell : ∀ z ∈ zs, c.cell z.1 = some z.2

/-- There are no other cells. -/
structure Holds (c : Cells β) (zs : List (ℕ × β)) : Prop extends Chained c zs where
  listed : ∀ p x, c.cell p = some x → (p, x) ∈ zs

variable {c : Cells β} {zs a b : List (ℕ × β)} {z : ℕ × β} {g hit : β → Bool} {turns p : ℕ} {x : β}

namespace Chained

theorem links_at (hz : Chained c (a ++ z :: b)) :
    Represents c.links (a.map Prod.fst ++ z.1 :: b.map Prod.fst) := by
  simpa using hz.links

theorem head (hz : Chained c zs) : c.links.head = zs.head?.map Prod.fst := by
  rw [hz.links.head, List.head?_map]

theorem next (hz : Chained c (a ++ z :: b)) : c.links.next z.1 = b.head?.map Prod.fst := by
  rw [hz.links_at.next_eq, List.head?_map]

theorem prev (hz : Chained c (a ++ z :: b)) : c.links.prev z.1 = a.getLast?.map Prod.fst := by
  rw [hz.links_at.prev_eq, List.getLast?_map]

theorem fst_ne (hz : Chained c (a ++ z :: b)) {w : ℕ × β} (hw : w ∈ a ++ b) : w.1 ≠ z.1 := by
  intro heq
  have hnodup := hz.links.nodup
  rw [List.map_append, List.map_cons, List.nodup_middle, ← List.map_append] at hnodup
  exact (List.nodup_cons.mp hnodup).1 (heq ▸ List.mem_map_of_mem hw)

theorem next_isSome (hz : Chained c (a ++ z :: b)) (hp : c.links.next z.1 = some p) :
    (c.cell p).isSome = true := by
  rw [hz.next, Option.map_eq_some_iff] at hp
  obtain ⟨w, hw, rfl⟩ := hp
  have hmem : w ∈ b := List.mem_of_mem_head? hw
  rw [hz.cell w (by simp [hmem])]
  rfl

theorem prev_isSome (hz : Chained c (a ++ z :: b)) (hp : c.links.prev z.1 = some p) :
    (c.cell p).isSome = true := by
  rw [hz.prev, Option.map_eq_some_iff] at hp
  obtain ⟨w, hw, rfl⟩ := hp
  have hmem : w ∈ a := List.mem_of_getLast? hw
  rw [hz.cell w (by simp [hmem])]
  rfl

/-- The walk goes on along the list until a cell fails the test. -/
theorem walk (hz : Chained c (a ++ b)) (hturns : b.length ≤ turns) :
    c.walk g turns (a.getLast?.map Prod.fst) (b.head?.map Prod.fst) =
      some ((a ++ b.takeWhile fun z => g z.2).getLast?.map Prod.fst,
        (b.dropWhile fun z => g z.2).head?.map Prod.fst) := by
  induction b generalizing a turns with
  | nil => simp [Cells.walk]
  | cons z b ih =>
    have hcell := hz.cell z (by simp)
    have hnext := hz.next
    cases turns with
    | zero => simp at hturns
    | succ turns =>
    have hturns : b.length ≤ turns := Nat.le_of_succ_le_succ hturns
    rw [List.head?_cons, Option.map_some, Cells.walk, hcell, Option.bind_eq_bind, Option.bind_some]
    by_cases hgo : g z.2 = true
    · have hstep := ih (a := a ++ [z]) (by simpa using hz) hturns
      rw [List.getLast?_concat, Option.map_some, ← hnext] at hstep
      rw [if_pos hgo, hstep, List.takeWhile_cons_of_pos (by exact hgo),
        List.dropWhile_cons_of_pos (by exact hgo), List.append_assoc, List.singleton_append]
    · rw [if_neg hgo, List.takeWhile_cons_of_neg (by exact hgo), List.append_nil,
        List.dropWhile_cons_of_neg (by exact hgo)]
      rfl

theorem walk_head (hz : Chained c zs) (hturns : zs.length ≤ turns) :
    c.walk g turns none c.links.head =
      some ((zs.takeWhile fun z => g z.2).getLast?.map Prod.fst,
        (zs.dropWhile fun z => g z.2).head?.map Prod.fst) := by
  rw [hz.head]
  exact Chained.walk (a := []) hz hturns

theorem search (hz : Chained c (a ++ b)) (hturns : b.length ≤ turns) :
    c.search g hit turns (b.head?.map Prod.fst) =
      some (((b.takeWhile fun z => g z.2).find? fun z => hit z.2).map Prod.fst) := by
  induction b generalizing a turns with
  | nil => simp [Cells.search]
  | cons z b ih =>
    have hcell := hz.cell z (by simp)
    have hnext := hz.next
    cases turns with
    | zero => simp at hturns
    | succ turns =>
    have hturns : b.length ≤ turns := Nat.le_of_succ_le_succ hturns
    rw [List.head?_cons, Option.map_some, Cells.search, hcell, Option.bind_eq_bind,
      Option.bind_some]
    by_cases hgo : g z.2 = true
    · rw [if_pos hgo, List.takeWhile_cons_of_pos (by exact hgo)]
      by_cases hhit : hit z.2 = true
      · rw [if_pos hhit, List.find?_cons_of_pos (by exact hhit)]
        rfl
      · rw [if_neg hhit, List.find?_cons_of_neg (by exact hhit), hnext]
        exact ih (a := a ++ [z]) (by simpa using hz) hturns
    · rw [if_neg hgo, List.takeWhile_cons_of_neg (by exact hgo)]
      rfl

end Chained

namespace Holds

theorem split (hz : Holds c zs) (hp : c.cell p = some x) : ∃ a b, zs = a ++ (p, x) :: b :=
  List.append_of_mem (hz.listed p x hp)

theorem not_mem (hz : Holds c zs) (hp : c.cell p = none) : p ∉ zs.map Prod.fst := by
  intro hmem
  obtain ⟨z, hz', rfl⟩ := List.mem_map.mp hmem
  rw [hz.cell z hz'] at hp
  cases hp

theorem alloc (hz : Holds c zs) (hp : c.cell p = none) : Chained (c.alloc p x) zs := by
  have hnot := hz.not_mem hp
  refine ⟨hz.links.update hnot, ?_⟩
  intro w hw
  have hne : w.1 ≠ p := fun heq => hnot (heq ▸ List.mem_map_of_mem hw)
  exact (Function.update_of_ne hne _ _).trans (hz.cell w hw)

/-- The branches of an insertion put a new cell where a walk stops. -/
theorem splice_alloc (hz : Holds c zs) (hp : c.cell p = none) :
    (c.alloc p x).links.splice ((zs.takeWhile fun z => g z.2).getLast?.map Prod.fst) p
        ((zs.dropWhile fun z => g z.2).head?.map Prod.fst) =
      some ((c.alloc p x).links.insert ((zs.takeWhile fun z => g z.2).getLast?.map Prod.fst) p
        ((zs.dropWhile fun z => g z.2).head?.map Prod.fst)) := by
  have hsplit : zs.map Prod.fst = (zs.takeWhile fun z => g z.2).map Prod.fst ++
      (zs.dropWhile fun z => g z.2).map Prod.fst := by
    rw [← List.map_append, List.takeWhile_append_dropWhile]
  have hlinks := (hz.alloc (x := x) hp).links
  have hnot := hz.not_mem hp
  rw [hsplit] at hlinks hnot
  rw [← List.getLast?_map, ← List.head?_map]
  apply splice_eq hlinks hnot
  · exact Function.update_self _ _ _
  · exact Function.update_self _ _ _

/-- It is linked in behind the cells that pass the test. -/
theorem insert (hz : Holds c zs) (hp : c.cell p = none) :
    Holds { c.alloc p x with
      links := (c.alloc p x).links.insert ((zs.takeWhile fun z => g z.2).getLast?.map Prod.fst) p
        ((zs.dropWhile fun z => g z.2).head?.map Prod.fst) }
      (insertBy (fun z => g z.2) (p, x) zs) := by
  have hnot := hz.not_mem hp
  have halloc : Chained (c.alloc p x) zs := hz.alloc hp
  refine ⟨⟨?_, ?_⟩, ?_⟩
  · rw [insertBy_eq, List.map_append, List.map_cons, ← List.getLast?_map, ← List.head?_map]
    apply insert_spec
    · rw [← List.map_append, List.takeWhile_append_dropWhile]
      exact halloc.links
    · rwa [← List.map_append, List.takeWhile_append_dropWhile]
  · intro w hw
    rcases mem_insertBy.mp hw with rfl | hw
    · exact Function.update_self _ _ _
    · exact halloc.cell w hw
  · intro p' x' hx'
    refine mem_insertBy.mpr ?_
    by_cases hp' : p' = p
    · subst hp'
      have hx'' : x = x' := by simpa [Cells.alloc] using hx'
      exact .inl (by rw [hx''])
    · exact .inr (hz.listed p' x' ((Function.update_of_ne hp' _ _).symm.trans hx'))

theorem remove (hz : Holds c (a ++ z :: b)) :
    Holds { links := c.links.remove z.1, cell := Function.update c.cell z.1 none } (a ++ b) := by
  refine ⟨⟨by simpa using remove_spec hz.links_at, ?_⟩, ?_⟩
  · intro w hw
    refine (Function.update_of_ne (hz.fst_ne hw) _ _).trans (hz.cell w ?_)
    exact ((List.sublist_cons_self z b).append_left a).subset hw
  · intro p x hx
    by_cases hp : p = z.1
    · subst hp
      simp at hx
    · have hmem := hz.listed p x ((Function.update_of_ne hp _ _).symm.trans hx)
      have hpz : (p, x) ≠ z := fun heq => hp (congrArg Prod.fst heq)
      simpa [hpz] using hmem

theorem modify (hz : Holds c (a ++ z :: b)) (f : β → β) :
    ∃ c', c.modify z.1 f = some c' ∧ Holds c' (a ++ (z.1, f z.2) :: b) := by
  have hcell := hz.cell z (by simp)
  refine ⟨{ c with cell := Function.update c.cell z.1 (some (f z.2)) }, ?_, ⟨?_, ?_⟩, ?_⟩
  · rw [Cells.modify, hcell]
    rfl
  · simpa using hz.links
  · intro w hw
    rcases List.mem_append.mp hw with hw | hw
    · have hne := hz.fst_ne (List.mem_append_left b hw)
      exact (Function.update_of_ne hne _ _).trans (hz.cell w (List.mem_append_left _ hw))
    · rcases List.mem_cons.mp hw with rfl | hw
      · exact Function.update_self _ _ _
      · have hne := hz.fst_ne (List.mem_append_right a hw)
        exact (Function.update_of_ne hne _ _).trans (hz.cell w (by simp [hw]))
  · intro p x hx
    by_cases hp : p = z.1
    · subst hp
      have hx' : f z.2 = x := by simpa using hx
      simp [hx']
    · have hmem := hz.listed p x ((Function.update_of_ne hp _ _).symm.trans hx)
      have hpz : (p, x) ≠ z := fun heq => hp (congrArg Prod.fst heq)
      have hpz' : (p, x) ≠ (z.1, f z.2) := fun heq => hp (congrArg Prod.fst heq)
      simpa [hpz, hpz'] using hmem

end Holds

end Fbaodv.Foundation.LinkedCells
