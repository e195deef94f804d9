import Fbaodv.Model.Routing

namespace Fbaodv.Proofs.OwnLoad

open Fbaodv.Model Fbaodv.Model.Routing

/-- The loads of the active entries, summed up without a bound. -/
def activeLoad (table : List AodvRoute) : ℕ :=
  ((table.filter fun e ↦ e.state == .active).map fun e ↦ e.load.toNat).sum

/-- One more entry is active, or an active one has a larger load. -/
inductive Grows : List AodvRoute → List AodvRoute → Prop
  | activate (a b : List AodvRoute) {e : AodvRoute} (h : e.state ≠ .active) :
      Grows (a ++ e :: b) (a ++ { e with state := .active } :: b)
  | raise (a b : List AodvRoute) {e : AodvRoute} {load : UInt8} (h : e.state = .active) (hload : e.load ≤ load) :
      Grows (a ++ e :: b) (a ++ { e with load := load } :: b)

/-- What `update_my_load` advertises for a route table. -/
def advertised (r : Routing) (table : List AodvRoute) : UInt8 := ({ r with table := table }.updateMyLoad).load

/-- The number of the next change of the load. -/
def nextSeq (loadSeq : UInt16) : UInt16 := if loadSeq = 65535 then 1 else loadSeq + 1

/-- What is asked of `update_my_load` for a route table: of what it advertises
for this table, and for those that the table grows into. -/
structure NotUnderReported (r : Routing) : Prop where
  least : ∀ e ∈ r.table, e.state = .active → e.load ≤ r.updateMyLoad.load
  grows : ∀ table, Grows r.table table → advertised r r.table ≤ advertised r table
  numbered : r.updateMyLoad.loadSeq ≠ r.loadSeq ↔ r.updateMyLoad.load ≠ r.load
  nonzero : r.loadSeq ≠ 0 → r.updateMyLoad.loadSeq ≠ 0

/-- The most that an entry adds to the sum once it is active: an active one may
be raised up to the largest load, another one becomes active with its own. -/
def mostLoad (e : AodvRoute) : ℕ := if e.state = .active then 255 else e.load.toNat

/-- On top of what the others leave in 8 bits there is room for each entry. -/
def LeavesRoom (table : List AodvRoute) : Prop :=
  ∀ a e b, table = a ++ e :: b → activeLoad (a ++ b) % 256 + mostLoad e ≤ 255

section Sums

variable {table table' a b : List AodvRoute} {e : AodvRoute} {r : Routing}

theorem activeLoad_append : activeLoad (a ++ b) = activeLoad a + activeLoad b := by
  simp [activeLoad]

theorem activeLoad_cons : activeLoad (e :: b) = (if e.state = .active then e.load.toNat else 0) + activeLoad b := by
  by_cases h : e.state = .active
  · simp [activeLoad, h]
  · simp [activeLoad, h]

/-- The accumulator of `update_my_load` has 8 bits. -/
theorem foldl_load (l : List AodvRoute) (acc : UInt8) : (l.foldl (fun acc e ↦ acc + e.load) acc).toNat =
    (acc.toNat + (l.map fun e ↦ e.load.toNat).sum) % 256 := by
  induction l generalizing acc with
  | nil => simp [Nat.mod_eq_of_lt acc.toNat_lt]
  | cons e l ih =>
    rw [List.foldl_cons, ih, UInt8.toNat_add, List.map_cons, List.sum_cons, ← Nat.add_assoc]
    omega

theorem updateMyLoad_load : r.updateMyLoad.load.toNat = activeLoad r.table % 256 := by
  have hsum := foldl_load (r.table.filter fun e ↦ e.state == .active) 0
  rw [UInt8.toNat_zero, Nat.zero_add] at hsum
  unfold updateMyLoad
  dsimp only
  split
  · exact hsum
  · next h => rw [← not_ne_iff.mp h] at hsum; exact hsum

theorem advertised_toNat : (advertised r table).toNat = activeLoad table % 256 := updateMyLoad_load

theorem updateMyLoad_loadSeq : r.updateMyLoad.loadSeq =
    if r.updateMyLoad.load = r.load then r.loadSeq else nextSeq r.loadSeq := by
  unfold updateMyLoad
  dsimp only
  split
  · next h => rw [if_neg h.symm, nextSeq]
  · rw [if_pos rfl]

theorem nextSeq_toNat (loadSeq : UInt16) : (nextSeq loadSeq).toNat = loadSeq.toNat % 65535 + 1 := by
  have hlt := loadSeq.toNat_lt
  unfold nextSeq
  split
  · next h => rw [h]; rfl
  · next h =>
    have hne : loadSeq.toNat ≠ 65535 := fun heq ↦ h (UInt16.toNat_inj.mp heq)
    rw [UInt16.toNat_add]
    change (loadSeq.toNat + 1) % 65536 = _
    omega

theorem nextSeq_ne (loadSeq : UInt16) : nextSeq loadSeq ≠ loadSeq := by
  intro heq
  have hseq := nextSeq_toNat loadSeq
  have hlt := loadSeq.toNat_lt
  rw [heq] at hseq
  omega

theorem nextSeq_ne_zero (loadSeq : UInt16) : nextSeq loadSeq ≠ 0 := by
  intro heq
  have hseq := nextSeq_toNat loadSeq
  rw [heq] at hseq
  cases hseq

theorem Grows.load (h : Grows table table') : ∃ d ≤ 255, activeLoad table' = activeLoad table + d := by
  cases h with
  | @activate a b e h =>
    refine ⟨e.load.toNat, Nat.le_of_lt_succ e.load.toNat_lt, ?_⟩
    simp only [activeLoad_append, activeLoad_cons, if_neg h, if_true]
    omega
  | @raise a b e load h hload =>
    have hle := UInt8.le_iff_toNat_le.mp hload
    have hlt := load.toNat_lt
    refine ⟨load.toNat - e.load.toNat, by omega, ?_⟩
    simp only [activeLoad_append, activeLoad_cons, if_pos h]
    omega

theorem activeLoad_split : activeLoad (a ++ e :: b) =
    activeLoad (a ++ b) + if e.state = .active then e.load.toNat else 0 := by
  simp only [activeLoad_append, activeLoad_cons]
  omega

/-- A sum that passes the next multiple of 256 comes out smaller than before. -/
theorem advertised_le_iff (h : Grows table table') : advertised r table ≤ advertised r table' ↔
    activeLoad table % 256 + (activeLoad table' - activeLoad table) ≤ 255 := by
  obtain ⟨d, hd, hsum⟩ := h.load
  rw [UInt8.le_iff_toNat_le, advertised_toNat, advertised_toNat, hsum]
  omega

/-- Both bounds together leave no rest of the other loads beside an active one. -/
theorem leavesRoom_of_bounds (hleast : ∀ e ∈ table, e.state = .active → e.load ≤ advertised r table)
    (hgrows : ∀ table', Grows table table' → advertised r table ≤ advertised r table') : LeavesRoom table := by
  rintro a e b rfl
  have hlt := e.load.toNat_lt
  by_cases hactive : e.state = .active
  · have hcovers := hleast e (by simp) hactive
    have hmost : e.load ≤ 255 := UInt8.le_iff_toNat_le.mpr (Nat.le_of_lt_succ hlt)
    have hraised : Grows (a ++ e :: b) (a ++ { e with load := 255 } :: b) := .raise a b hactive hmost
    have hraise := (advertised_le_iff hraised).mp (hgrows _ hraised)
    rw [activeLoad_split (a := a), activeLoad_split (a := a), if_pos hactive, if_pos hactive] at hraise
    rw [UInt8.le_iff_toNat_le, advertised_toNat, activeLoad_split, if_pos hactive] at hcovers
    rw [mostLoad, if_pos hactive]
    change (activeLoad (a ++ b) + e.load.toNat) % 256 + (activeLoad (a ++ b) + 255 - _) ≤ 255 at hraise
    omega
  · have hactivated : Grows (a ++ e :: b) (a ++ { e with state := .active } :: b) := .activate a b hactive
    have hactivate := (advertised_le_iff hactivated).mp (hgrows _ hactivated)
    rw [activeLoad_split (a := a), activeLoad_split (a := a), if_neg hactive, if_pos rfl] at hactivate
    rw [mostLoad, if_neg hactive]
    dsimp only at hactivate
    omega

theorem LeavesRoom.least (h : LeavesRoom table) (he : e ∈ table) (hactive : e.state = .active) :
    e.load ≤ advertised r table := by
  obtain ⟨a, b, rfl⟩ := List.append_of_mem he
  have hroom := h a e b rfl
  rw [mostLoad, if_pos hactive] at hroom
  have hlt := e.load.toNat_lt
  rw [UInt8.le_iff_toNat_le, advertised_toNat, activeLoad_split, if_pos hactive]
  omega

theorem LeavesRoom.grows (h : LeavesRoom table) (hgrows : Grows table table') :
    advertised r table ≤ advertised r table' := by
  rw [advertised_le_iff hgrows]
  cases hgrows with
  | @activate a b e hinactive =>
    have hroom := h a e b rfl
    rw [mostLoad, if_neg hinactive] at hroom
    rw [activeLoad_split, activeLoad_split, if_neg hinactive, if_pos rfl]
    dsimp only
    omega
  | @raise a b e load hactive hload =>
    have hroom := h a e b rfl
    have hle := UInt8.le_iff_toNat_le.mp hload
    have hlt := load.toNat_lt
    rw [mostLoad, if_pos hactive] at hroom
    rw [activeLoad_split, activeLoad_split, if_pos hactive, if_pos hactive]
    dsimp only
    omega

end Sums

/-- The advertised load never under-reports exactly while every entry has room in
8 bits on top of the others, and one growth of the table does not lower it exactly
if the loads that it adds have. -/
theorem own_load_iff (r : Routing) : (NotUnderReported r ↔ LeavesRoom r.table) ∧
    ∀ table, Grows r.table table → (advertised r r.table ≤ advertised r table ↔
      activeLoad r.table % 256 + (activeLoad table - activeLoad r.table) ≤ 255) := by
  refine ⟨⟨fun h ↦ leavesRoom_of_bounds h.least h.grows, fun h ↦ ?_⟩, fun _ ↦ advertised_le_iff⟩
  refine ⟨fun e he hactive ↦ h.least he hactive, fun table hgrows ↦ h.grows hgrows, ?_, ?_⟩
  · rw [updateMyLoad_loadSeq]
    split
    · next hload => simp [hload]
    · next hload => simp [hload, nextSeq_ne]
  · intro hseq
    rw [updateMyLoad_loadSeq]
    split
    · exact hseq
    · exact nextSeq_ne_zero r.loadSeq

/-- The route of a flow to 192.168.1.9. -/
def flowRoute (srcIp : Ip) (load : UInt8) : AodvRoute where
  ptr := srcIp.toNat
  srcIp := srcIp
  dstIp := 0x0901a8c0
  tos := 0x02
  nextHop := 0x0201a8c0
  lastHop := srcIp
  numHops := 2
  pathMetric := 100
  dstId := 1
  lifetime := 4800
  load := load
  neighRoute := false
  selfRoute := false
  state := .active

/-- Two flows of which one takes more than half of the channel. -/
def twoFlows : Routing where
  table := [flowRoute 0x0301a8c0 200, flowRoute 0x0401a8c0 100]
  srcList := [⟨0x0401a8c0, 2, 1⟩, ⟨0x0301a8c0, 1, 1⟩]
  kernel := ∅
  installed := ∅
  localRoute := 0
  load := 200
  loadSeq := 2
  heap := 0
  freed := []
  kmalloc := []
  netlink := []
  junk := []

/-- The second flow brings the advertised load from 200 down to 44. -/
theorem own_load_two_flows : twoFlows.updateMyLoad.load = 44 ∧
    (∃ e ∈ twoFlows.table, e.state = .active ∧ ¬ e.load ≤ twoFlows.updateMyLoad.load) ∧
    ∃ table, Grows table twoFlows.table ∧ ¬ advertised twoFlows table ≤ advertised twoFlows twoFlows.table := by
  refine ⟨by decide, ⟨flowRoute 0x0301a8c0 200, List.mem_cons_self, rfl, by decide⟩, ?_⟩
  exact ⟨[flowRoute 0x0301a8c0 200, { flowRoute 0x0401a8c0 100 with state := .invalid }],
    .activate [flowRoute 0x0301a8c0 200] [] (by decide), by decide⟩

end Fbaodv.Proofs.OwnLoad
