import Fbaodv.Foundation.LatestRegister
import Fbaodv.Model.Hello
import Fbaodv.Proofs.OwnLoad

namespace Fbaodv.Proofs.LoadAnnouncements

open Fbaodv.Model Fbaodv.Model.Node Fbaodv.Foundation.LatestRegister
open Fbaodv.Proofs.OwnLoad

/-- The number that `update_my_load` gives to the `k`-th change of the load,
from the one on that the node starts with. -/
def changeSeq (k : ℕ) : UInt16 := UInt16.ofNat ((k - 1) % 65535 + 1)

/-- After every delivery the pair that an entry stores is that of the newest
change among those delivered. -/
def NewestStored {α : Type} (stored : α → UInt8 × UInt16) (update : UInt8 → UInt16 → α → α)
    (load : ℕ → UInt8) (x : α) (l : List ℕ) : Prop :=
  ∀ p, p <+: l → ∀ m, Newest p m →
    stored (p.foldl (fun x k ↦ update (load k) (changeSeq k) x) x) = (load m, changeSeq m)

/-- Each announcement comes from the same round of the numbers as the newest one
before it, or is fewer than 1535 changes newer. -/
def SameRound (l : List ℕ) : Prop :=
  ∀ p k, p ++ [k] <+: l → ∀ m, Newest p m → (m - 1) / 65535 = (k - 1) / 65535 ∨ m < k ∧ k < m + 1535

section Numbers

variable {j k m : ℕ}

theorem changeSeq_toNat (k : ℕ) : (changeSeq k).toNat = (k - 1) % 65535 + 1 := by
  have hlt : (k - 1) % 65535 < 65535 := Nat.mod_lt _ (by decide)
  rw [changeSeq, UInt16.toNat_ofNat', Nat.mod_eq_of_lt (by omega)]

theorem changeSeq_succ (hk : 1 ≤ k) : changeSeq (k + 1) = nextSeq (changeSeq k) := by
  refine UInt16.toNat_inj.mp ?_
  rw [nextSeq_toNat, changeSeq_toNat, changeSeq_toNat]
  omega

theorem updateMyLoad_changeSeq {r : Routing} (hk : 1 ≤ k) (hr : r.loadSeq = changeSeq k) :
    r.updateMyLoad.loadSeq = changeSeq (if r.updateMyLoad.load = r.load then k else k + 1) := by
  rw [updateMyLoad_loadSeq, hr, ← changeSeq_succ hk]
  split <;> rfl

theorem eq_of_changeSeq (hj : 1 ≤ j) (hk : 1 ≤ k) (hjk : j < k + 32768) (hkj : k < j + 32768)
    (h : changeSeq j = changeSeq k) : j = k := by
  have hseq := congrArg UInt16.toNat h
  rw [changeSeq_toNat, changeSeq_toNat] at hseq
  omega

theorem newerLoad_iff (old loadSeq : UInt16) : newerLoad old loadSeq = true ↔
    old.toNat < loadSeq.toNat ∨ loadSeq.toNat < old.toNat ∧ 64000 < old.toNat - loadSeq.toNat := by
  simp [newerLoad, UInt16.lt_iff_toNat_lt]

theorem newerLoad_zero (k : ℕ) : newerLoad 0 (changeSeq k) = true := by
  rw [newerLoad_iff, changeSeq_toNat]
  exact .inl (Nat.succ_pos _)

/-- The test is right within a round, and up to 1534 changes into the next. -/
theorem newerLoad_changeSeq (hm : 1 ≤ m) (hk : 1 ≤ k) (hmk : m < k + 32768) (hkm : k < m + 32768) :
    (newerLoad (changeSeq m) (changeSeq k) = true ↔ m < k) ↔
      (m - 1) / 65535 = (k - 1) / 65535 ∨ m < k ∧ k < m + 1535 := by
  rw [newerLoad_iff, changeSeq_toNat, changeSeq_toNat]
  have hm' := Nat.div_add_mod (m - 1) 65535
  have hk' := Nat.div_add_mod (k - 1) 65535
  have hmlt := Nat.mod_lt (m - 1) (y := 65535) (by decide)
  have hklt := Nat.mod_lt (k - 1) (y := 65535) (by decide)
  generalize (m - 1) / 65535 = a at *
  generalize (k - 1) / 65535 = b at *
  generalize (m - 1) % 65535 = c at *
  generalize (k - 1) % 65535 = d at *
  rcases lt_trichotomy a b with hab | hab | hab
  · have hb : b = a + 1 := by omega
    subst hb
    constructor
    · intro h
      refine .inr ?_
      omega
    · intro h
      omega
  · subst hab
    refine iff_of_true ?_ (.inl rfl)
    omega
  · have ha : a = b + 1 := by omega
    subst ha
    refine iff_of_false ?_ ?_
    · omega
    · omega

end Numbers

section Deliveries

variable {α : Type} {stored : α → UInt8 × UInt16} {update : UInt8 → UInt16 → α → α} {load : ℕ → UInt8}
  {x : α} {l p : List ℕ}

/-- The entry holds the change that a register with the code's test holds. -/
theorem stored_eq (load : ℕ → UInt8)
    (hupdate : ∀ a b x, stored (update a b x) = if newerLoad (stored x).2 b then (a, b) else stored x)
    (hx : (stored x).2 = 0) (hp : p ≠ []) :
    ∃ m ∈ p, held (fun m k ↦ newerLoad (changeSeq m) (changeSeq k)) p = some m ∧
      stored (p.foldl (fun x k ↦ update (load k) (changeSeq k) x) x) = (load m, changeSeq m) := by
  obtain ⟨m, hm, hheld⟩ : ∃ m ∈ p, held (fun m k ↦ newerLoad (changeSeq m) (changeSeq k)) p = some m := exists_held hp
  refine ⟨m, hm, hheld, ?_⟩
  induction p using List.reverseRecOn generalizing m with
  | nil => exact absurd rfl hp
  | append_singleton p k ih =>
    rw [List.foldl_append, List.foldl_cons, List.foldl_nil, hupdate]
    rw [held_concat] at hheld
    rcases eq_or_ne p [] with rfl | hne
    · obtain rfl : k = m := Option.some.inj hheld
      rw [List.foldl_nil, hx, if_pos (newerLoad_zero k)]
    obtain ⟨m', hm', hheld'⟩ : ∃ m ∈ p, held (fun m k ↦ newerLoad (changeSeq m) (changeSeq k)) p = some m :=
      exists_held hne
    rw [hheld', take] at hheld
    rw [ih hne m' hm' hheld']
    split at hheld
    · next hnewer =>
      obtain rfl := Option.some.inj hheld
      rw [if_pos hnewer]
    · next hnewer =>
      obtain rfl := Option.some.inj hheld
      rw [if_neg hnewer]

theorem newestStored_iff
    (hupdate : ∀ a b x, stored (update a b x) = if newerLoad (stored x).2 b then (a, b) else stored x)
    (hx : (stored x).2 = 0) (hpos : ∀ k ∈ l, 1 ≤ k) (hwindow : ∀ j ∈ l, ∀ k ∈ l, j < k + 32768) :
    NewestStored stored update load x l ↔ SameRound l := by
  have hheld : NewestStored stored update load x l ↔
      ∀ p, p <+: l → ∀ m, Newest p m → held (fun m k ↦ newerLoad (changeSeq m) (changeSeq k)) p = some m := by
    refine forall₂_congr fun p hp ↦ forall₂_congr fun m hm ↦ ?_
    obtain ⟨m', hm', hheld, hstored⟩ := stored_eq load hupdate hx (List.ne_nil_of_mem hm.1)
    rw [hheld, hstored]
    constructor
    · intro h
      have hml := hp.subset hm.1
      have hml' := hp.subset hm'
      exact congrArg some (eq_of_changeSeq (hpos m' hml') (hpos m hml) (hwindow _ hml' _ hml)
        (hwindow _ hml _ hml') (Prod.ext_iff.mp h).2)
    · intro h
      rw [Option.some.inj h]
  rw [hheld, held_newest_iff]
  refine forall₂_congr fun p k ↦ forall_congr' fun hp ↦ forall₂_congr fun m hm ↦ ?_
  have hml : m ∈ l := hp.subset (List.mem_append_left _ hm.1)
  have hkl : k ∈ l := hp.subset (List.mem_append_right _ List.mem_cons_self)
  rw [← newerLoad_changeSeq (hpos m hml) (hpos k hkl) (hwindow _ hml _ hkl) (hwindow _ hkl _ hml)]
  refine ⟨fun h ↦ ?_, fun h _ ↦ h⟩
  rcases eq_or_ne m k with rfl | hne
  · refine iff_of_false (fun hnewer ↦ ?_) (lt_irrefl m)
    rw [newerLoad_iff] at hnewer
    omega
  · exact h hne

end Deliveries

/-- The load of an entry and its number. -/
def storedLoad (x : AodvNeigh) : UInt8 × UInt16 := (x.loadMetric.load, x.loadMetric.loadSeq)

def storedLoad2h (y : AodvNeigh2h) : UInt8 × UInt16 := (y.load, y.loadSeq)

theorem storedLoad_updateNeighLoad (load : UInt8) (loadSeq : UInt16) (x : AodvNeigh) :
    storedLoad (updateNeighLoad load loadSeq x) =
      if newerLoad (storedLoad x).2 loadSeq then (load, loadSeq) else storedLoad x := by
  unfold updateNeighLoad storedLoad
  split <;> rfl

theorem storedLoad2h_updateNeighLoad2h (load : UInt8) (loadSeq : UInt16) (y : AodvNeigh2h) :
    storedLoad2h (updateNeighLoad2h load loadSeq y) =
      if newerLoad (storedLoad2h y).2 loadSeq then (load, loadSeq) else storedLoad2h y := by
  unfold updateNeighLoad2h storedLoad2h
  split <;> rfl

/-- The changes are numbered as `update_my_load` does, and a neighbour entry
always stores the newest announcement exactly if those from behind a wrap of the
numbers come after all from before it, and close behind. -/
theorem newest_load_iff (load : ℕ → UInt8) (l : List ℕ) (hpos : ∀ k ∈ l, 1 ≤ k)
    (hwindow : ∀ j ∈ l, ∀ k ∈ l, j < k + 32768) :
    (∀ (r : Routing) (k : ℕ), 1 ≤ k → r.loadSeq = changeSeq k →
      r.updateMyLoad.loadSeq = changeSeq (if r.updateMyLoad.load = r.load then k else k + 1)) ∧
    (∀ x : AodvNeigh, x.loadMetric.loadSeq = 0 →
      (NewestStored storedLoad updateNeighLoad load x l ↔ SameRound l)) ∧
    ∀ y : AodvNeigh2h, y.loadSeq = 0 →
      (NewestStored storedLoad2h updateNeighLoad2h load y l ↔ SameRound l) :=
  ⟨fun _ _ ↦ updateMyLoad_changeSeq, fun _ hx ↦ newestStored_iff storedLoad_updateNeighLoad hx hpos hwindow,
    fun _ hy ↦ newestStored_iff storedLoad2h_updateNeighLoad2h hy hpos hwindow⟩

/-- The entry of a 2-hop neighbour that has announced no load. -/
def newNeigh2h : AodvNeigh2h := ⟨0x0201a8c0, 10000, 0, 0⟩

theorem newest_load_reordered : NewestStored storedLoad2h updateNeighLoad2h UInt8.ofNat newNeigh2h [7, 9, 8, 7] := by
  refine ((newest_load_iff UInt8.ofNat [7, 9, 8, 7] (by decide) (by decide)).2.2 newNeigh2h rfl).mpr ?_
  intro p k hp m hm
  have hround : ∀ k ∈ [7, 9, 8, 7], (k - 1) / 65535 = 0 := by decide
  have hk : k ∈ [7, 9, 8, 7] := hp.subset (List.mem_append_right _ List.mem_cons_self)
  have hm : m ∈ [7, 9, 8, 7] := hp.subset (List.mem_append_left _ hm.1)
  exact .inl ((hround m hm).trans (hround k hk).symm)

/-- The change numbered 65535 arrives again after the next one, which is numbered
1, and replaces it. -/
theorem newest_load_late : ¬ NewestStored storedLoad2h updateNeighLoad2h UInt8.ofNat newNeigh2h [65536, 65535] := by
  intro h
  have hnewest : Newest [65536, 65535] 65536 := ⟨List.mem_cons_self, by simp [upperBounds]⟩
  have hstored := h [65536, 65535] (List.prefix_refl _) 65536 hnewest
  revert hstored
  decide

end Fbaodv.Proofs.LoadAnnouncements
