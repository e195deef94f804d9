import Fbaodv.Model.Hello
import Mathlib.Data.Finset.Card
import Mathlib.Data.List.Dedup

namespace Fbaodv.Proofs.NeighTx

open Fbaodv.Model Fbaodv.Model.Node

section Index

variable {neightx : Ip} {tx d : List Ip} {i k : ℕ} {firstEmpty : ℤ} {x : AodvNeigh}

theorem neightxLoop_of_mem (h : neightx ∈ tx) :
    neightxLoop neightx tx i firstEmpty = i + tx.findIdx (· == neightx) := by
  induction tx generalizing i firstEmpty with
  | nil => exact absurd h List.not_mem_nil
  | cons position tx ih =>
    rw [neightxLoop, List.findIdx_cons]
    by_cases hpos : position = neightx
    · simp [hpos]
    · have hmem : neightx ∈ tx := (List.mem_cons.mp h).resolve_left (Ne.symm hpos)
      rw [if_neg hpos, ih hmem, beq_false_of_ne hpos]
      simp only [cond_false]
      omega

theorem neightxLoop_full (h : neightx ∉ tx) (hfull : 0 ∉ tx) : neightxLoop neightx tx i firstEmpty = firstEmpty := by
  induction tx generalizing i with
  | nil => rfl
  | cons position tx ih =>
    rw [List.mem_cons, not_or] at h hfull
    rw [neightxLoop, if_neg (Ne.symm h.1), if_neg fun hempty ↦ hfull.1 hempty.1.symm, ih h.2 hfull.2]

theorem neightxLoop_found (h : neightx ∉ tx) (hne : firstEmpty ≠ -1) :
    neightxLoop neightx tx i firstEmpty = firstEmpty := by
  induction tx generalizing i with
  | nil => rfl
  | cons position tx ih =>
    rw [List.mem_cons, not_or] at h
    rw [neightxLoop, if_neg (Ne.symm h.1), if_neg fun hempty ↦ hne hempty.2, ih h.2]

theorem neightxLoop_empty (h : neightx ∉ tx) (hempty : 0 ∈ tx) :
    neightxLoop neightx tx i (-1) = i + tx.findIdx (· == 0) := by
  induction tx generalizing i with
  | nil => exact absurd hempty List.not_mem_nil
  | cons position tx ih =>
    rw [List.mem_cons, not_or] at h
    rw [neightxLoop, if_neg (Ne.symm h.1), List.findIdx_cons]
    by_cases hpos : position = 0
    · rw [if_pos ⟨hpos, rfl⟩, neightxLoop_found h.2 (by omega), hpos]
      simp
    · have hmem : 0 ∈ tx := (List.mem_cons.mp hempty).resolve_left (Ne.symm hpos)
      rw [if_neg fun hboth ↦ hpos hboth.1, ih h.2 hmem, beq_false_of_ne hpos]
      simp only [cond_false]
      omega

/-- The model of `update_neightx` writes where the loop says. -/
theorem updateNeightx_eq (neightx : Ip) (x : AodvNeigh) : updateNeightx neightx x =
    if neightxIndex neightx x = -1 then
      { x with loadMetric := { x.loadMetric with
          loadSeq := neightx.toUInt16, load := (neightx >>> 16).toUInt8 } }
    else
      { x with loadMetric := { x.loadMetric with
          neighTx := x.loadMetric.neighTx.set (neightxIndex neightx x).toNat neightx } } := by
  unfold updateNeightx neightxIndex
  generalize htx : x.loadMetric.neighTx = tx
  dsimp only
  by_cases hmem : neightx ∈ tx
  · have hlt : tx.findIdx (· == neightx) < tx.length := List.findIdx_lt_length_of_exists ⟨neightx, hmem, by simp⟩
    have hget : tx[tx.findIdx (· == neightx)] = neightx := by simpa using List.findIdx_getElem (w := hlt)
    rw [neightxLoop_of_mem hmem, List.findIdx?_eq_some_of_exists ⟨neightx, hmem, by simp⟩, if_neg (by omega)]
    have hindex : (((0 : ℕ) : ℤ) + (tx.findIdx (· == neightx) : ℕ)).toNat = tx.findIdx (· == neightx) := by omega
    have hset : tx.set (tx.findIdx (· == neightx)) neightx = tx := by
      have hself := List.set_getElem_self hlt
      rwa [hget] at hself
    rw [hindex, hset, ← htx]
  · have hnone : tx.findIdx? (· == neightx) = none :=
      List.findIdx?_eq_none_iff.mpr fun a ha ↦ beq_false_of_ne fun heq ↦ hmem (heq ▸ ha)
    rw [hnone]
    by_cases hempty : 0 ∈ tx
    · rw [neightxLoop_empty hmem hempty, List.findIdx?_eq_some_of_exists ⟨0, hempty, by simp⟩, if_neg (by omega)]
      have hindex : (((0 : ℕ) : ℤ) + (tx.findIdx (· == 0) : ℕ)).toNat = tx.findIdx (· == 0) := by omega
      rw [hindex]
    · have hnone : tx.findIdx? (· == 0) = none :=
        List.findIdx?_eq_none_iff.mpr fun a ha ↦ beq_false_of_ne fun heq ↦ hempty (heq ▸ ha)
      rw [neightxLoop_full hmem hempty, hnone, if_pos rfl]

end Index

/-- A neighbour after calls of `update_neightx` with the addresses of `l`. -/
def told (x : AodvNeigh) (l : List Ip) : AodvNeigh := l.foldl (fun x neightx ↦ updateNeightx neightx x) x

/-- What is asked of the table `neigh_tx` over the calls with the addresses of
`l`. -/
structure TxTableKept (x : AodvNeigh) (l : List Ip) : Prop where
  inBounds : ∀ p a, p ++ [a] <+: l →
    0 ≤ neightxIndex a (told x p) ∧ neightxIndex a (told x p) < neighTablesize
  load : ∀ p, p <+: l → (told x p).loadMetric.load = x.loadMetric.load ∧
    (told x p).loadMetric.loadSeq = x.loadMetric.loadSeq
  nodup : ∀ p, p <+: l → ((told x p).loadMetric.neighTx.filter (· != 0)).Nodup
  present : ∀ p, p <+: l → p.toFinset.card ≤ neighTablesize → ∀ a ∈ p, a ∈ (told x p).loadMetric.neighTx

/-- The table holds the different addresses `d` among those of `p`, and behind
them empty slots. -/
structure Lists (x₀ : AodvNeigh) (p d : List Ip) (x : AodvNeigh) : Prop where
  nodup : d.Nodup
  mem : ∀ a, a ∈ d ↔ a ∈ p
  length : d.length ≤ neighTablesize
  table : x.loadMetric.neighTx = d ++ List.replicate (neighTablesize - d.length) 0
  load : x.loadMetric.load = x₀.loadMetric.load ∧ x.loadMetric.loadSeq = x₀.loadMetric.loadSeq

section Calls

variable {x₀ x : AodvNeigh} {p d l : List Ip} {a : Ip}

theorem told_concat : told x (p ++ [a]) = updateNeightx a (told x p) := by
  rw [told, List.foldl_append, List.foldl_cons, List.foldl_nil, told]

theorem Lists.card (h : Lists x₀ p d x) : p.toFinset.card = d.length := by
  rw [← List.toFinset_card_of_nodup h.nodup]
  congr 1
  ext a
  rw [List.mem_toFinset, List.mem_toFinset, h.mem]

theorem Lists.nonzero (h : Lists x₀ p d x) (hp : ∀ a ∈ p, a ≠ 0) : 0 ∉ d := fun h0 ↦ hp 0 ((h.mem 0).mp h0) rfl

theorem Lists.again (h : Lists x₀ p d x) (ha : a ∈ d) : Lists x₀ (p ++ [a]) d (updateNeightx a x) ∧
    0 ≤ neightxIndex a x ∧ neightxIndex a x < neighTablesize := by
  have hmem : a ∈ x.loadMetric.neighTx := h.table ▸ List.mem_append_left _ ha
  have hsame : updateNeightx a x = x := by
    unfold updateNeightx
    dsimp only
    rw [List.findIdx?_eq_some_of_exists ⟨a, hmem, by simp⟩]
  rw [hsame]
  refine ⟨⟨h.nodup, fun b ↦ ?_, h.length, h.table, h.load⟩, ?_⟩
  · rw [h.mem, List.mem_append, List.mem_singleton]
    refine ⟨.inl, fun hb ↦ hb.elim id fun heq ↦ heq ▸ (h.mem a).mp ha⟩
  · have hlt : x.loadMetric.neighTx.findIdx (· == a) < x.loadMetric.neighTx.length :=
      List.findIdx_lt_length_of_exists ⟨a, hmem, by simp⟩
    have hlength : x.loadMetric.neighTx.length = neighTablesize := by
      have := h.length
      rw [h.table, List.length_append, List.length_replicate]
      omega
    rw [neightxIndex, neightxLoop_of_mem hmem]
    omega

theorem Lists.new (h : Lists x₀ p d x) (hp : ∀ a ∈ p, a ≠ 0) (ha : a ∉ d) (ha0 : a ≠ 0)
    (hlt : d.length < neighTablesize) : Lists x₀ (p ++ [a]) (d ++ [a]) (updateNeightx a x) ∧
      0 ≤ neightxIndex a x ∧ neightxIndex a x < neighTablesize := by
  have h0 := h.nonzero hp
  obtain ⟨k, hk⟩ : ∃ k, neighTablesize - d.length = k + 1 := ⟨neighTablesize - d.length - 1, by omega⟩
  have htable : x.loadMetric.neighTx = d ++ 0 :: List.replicate k 0 := by rw [h.table, hk, List.replicate_succ]
  have hmem : a ∉ x.loadMetric.neighTx := by
    rw [htable, ← List.replicate_succ, List.mem_append, not_or]
    exact ⟨ha, fun hmem ↦ ha0 (List.eq_of_mem_replicate hmem)⟩
  have hempty : 0 ∈ x.loadMetric.neighTx := by
    rw [htable]
    exact List.mem_append_right _ List.mem_cons_self
  have hslot : x.loadMetric.neighTx.findIdx (· == 0) = d.length := by
    have hnone : d.findIdx (· == 0) = d.length :=
      List.findIdx_eq_length.mpr fun b hb ↦ beq_false_of_ne fun heq ↦ h0 (heq ▸ hb)
    rw [htable, List.findIdx_append, hnone, if_neg (lt_irrefl _), List.findIdx_cons]
    simp
  have hindex : neightxIndex a x = d.length := by rw [neightxIndex, neightxLoop_empty hmem hempty, hslot]; omega
  have hupdate := updateNeightx_eq a x
  rw [hindex, if_neg (by omega), Int.toNat_natCast, htable, List.set_append_right _ _ le_rfl, Nat.sub_self,
    List.set_cons_zero] at hupdate
  rw [hindex, hupdate]
  refine ⟨⟨?_, fun b ↦ ?_, ?_, ?_, h.load⟩, by omega⟩
  · exact List.nodup_append_comm.mpr (List.nodup_cons.mpr ⟨ha, h.nodup⟩)
  · rw [List.mem_append, List.mem_append, h.mem]
  · rw [List.length_append, List.length_singleton]
    exact hlt
  · rw [List.length_append, List.length_singleton, ← Nat.sub_sub, hk, Nat.add_sub_cancel, List.append_assoc,
      List.singleton_append]

theorem Lists.full (h : Lists x₀ p d x) (hp : ∀ a ∈ p, a ≠ 0) (ha : a ∉ d) (hfull : d.length = neighTablesize) :
    neightxIndex a x = -1 := by
  have htable : x.loadMetric.neighTx = d := by rw [h.table, hfull, Nat.sub_self, List.replicate_zero, List.append_nil]
  rw [neightxIndex, htable, neightxLoop_full ha (h.nonzero hp)]

theorem Lists.call (h : Lists x₀ p d x) (hp : ∀ a ∈ p, a ≠ 0) (ha0 : a ≠ 0) :
    (∃ d', Lists x₀ (p ++ [a]) d' (updateNeightx a x)) ∧
        0 ≤ neightxIndex a x ∧ neightxIndex a x < neighTablesize ∨
      neightxIndex a x = -1 ∧ neighTablesize < (p ++ [a]).toFinset.card := by
  by_cases ha : a ∈ d
  · exact .inl ⟨⟨d, (h.again ha).1⟩, (h.again ha).2⟩
  rcases h.length.lt_or_eq with hlt | hfull
  · exact .inl ⟨⟨d ++ [a], (h.new hp ha ha0 hlt).1⟩, (h.new hp ha ha0 hlt).2⟩
  · refine .inr ⟨h.full hp ha hfull, ?_⟩
    have hnew : a ∉ p.toFinset := fun hmem ↦ ha ((h.mem a).mpr (List.mem_toFinset.mp hmem))
    rw [List.toFinset_append, List.toFinset_cons, List.toFinset_nil, insert_empty_eq, Finset.union_comm,
      ← Finset.insert_eq, Finset.card_insert_of_notMem hnew, h.card]
    omega

theorem lists_nil (hx : x.loadMetric.neighTx = List.replicate neighTablesize 0) : Lists x [] [] (told x []) :=
  ⟨List.nodup_nil, fun _ ↦ Iff.rfl, Nat.zero_le _, hx, rfl, rfl⟩

theorem lists_of_inBounds (hx : x.loadMetric.neighTx = List.replicate neighTablesize 0) (h0 : ∀ a ∈ l, a ≠ 0)
    (h : ∀ p a, p ++ [a] <+: l → 0 ≤ neightxIndex a (told x p)) (p : List Ip) (hp : p <+: l) :
    ∃ d, Lists x p d (told x p) := by
  induction p using List.reverseRecOn with
  | nil => exact ⟨[], lists_nil hx⟩
  | append_singleton p a ih =>
    have hp' : p <+: l := (List.prefix_append p [a]).trans hp
    obtain ⟨d, hd⟩ := ih hp'
    have ha0 : a ≠ 0 := h0 a (hp.subset (List.mem_append_right _ List.mem_cons_self))
    rw [told_concat]
    rcases hd.call (fun a ha ↦ h0 a (hp'.subset ha)) ha0 with ⟨hnext, -⟩ | ⟨hout, -⟩
    · exact hnext
    · have hin := h p a hp
      rw [hout] at hin
      exact absurd hin (by decide)

theorem lists_of_card (hx : x.loadMetric.neighTx = List.replicate neighTablesize 0) (h0 : ∀ a ∈ l, a ≠ 0)
    (hcard : l.toFinset.card ≤ neighTablesize) (p : List Ip) (hp : p <+: l) :
    (∃ d, Lists x p d (told x p)) ∧
      ∀ a, p ++ [a] <+: l → 0 ≤ neightxIndex a (told x p) ∧ neightxIndex a (told x p) < neighTablesize := by
  have hfits : ∀ p, p <+: l → p.toFinset.card ≤ neighTablesize := fun p hp ↦
    (Finset.card_le_card fun a ha ↦ List.mem_toFinset.mpr (hp.subset (List.mem_toFinset.mp ha))).trans hcard
  have hcall : ∀ p d a, p ++ [a] <+: l → Lists x p d (told x p) →
      (∃ d', Lists x (p ++ [a]) d' (told x (p ++ [a]))) ∧
        0 ≤ neightxIndex a (told x p) ∧ neightxIndex a (told x p) < neighTablesize := by
    intro p d a hp hd
    have ha0 : a ≠ 0 := h0 a (hp.subset (List.mem_append_right _ List.mem_cons_self))
    have hp0 : ∀ a ∈ p, a ≠ 0 := fun b hb ↦ h0 b (hp.subset (List.mem_append_left _ hb))
    rw [told_concat]
    rcases hd.call hp0 ha0 with hnext | ⟨-, hmany⟩
    · exact hnext
    · exact absurd (hfits _ hp) (not_le.mpr hmany)
  have hlists : ∃ d, Lists x p d (told x p) := by
    induction p using List.reverseRecOn with
    | nil => exact ⟨[], lists_nil hx⟩
    | append_singleton p a ih =>
      obtain ⟨d, hd⟩ := ih ((List.prefix_append p [a]).trans hp)
      exact (hcall p d a hp hd).1
  obtain ⟨d, hd⟩ := hlists
  exact ⟨⟨d, hd⟩, fun a ha ↦ (hcall p d a ha hd).2⟩

end Calls

/-- The table stays in bounds and a set exactly if the different addresses fit
into it. -/
theorem tx_table_kept_iff (x : AodvNeigh) (l : List Ip)
    (hx : x.loadMetric.neighTx = List.replicate neighTablesize 0) (h0 : ∀ a ∈ l, a ≠ 0) :
    TxTableKept x l ↔ l.toFinset.card ≤ neighTablesize := by
  constructor
  · intro h
    obtain ⟨d, hd⟩ := lists_of_inBounds hx h0 (fun p a hp ↦ (h.inBounds p a hp).1) l (List.prefix_refl l)
    exact hd.card.trans_le hd.length
  · intro hcard
    have hlists := lists_of_card hx h0 hcard
    refine ⟨fun p a hp ↦ ?_, fun p hp ↦ ?_, fun p hp ↦ ?_, fun p hp _ a ha ↦ ?_⟩
    · exact (hlists p ((List.prefix_append p [a]).trans hp)).2 a hp
    · obtain ⟨⟨d, hd⟩, -⟩ := hlists p hp
      exact hd.load
    · obtain ⟨⟨d, hd⟩, -⟩ := hlists p hp
      have hempty : (List.replicate (neighTablesize - d.length) (0 : Ip)).filter (· != 0) = [] :=
        List.filter_eq_nil_iff.mpr fun a ha ↦ by simp [List.eq_of_mem_replicate ha]
      rw [hd.table, List.filter_append, hempty, List.append_nil]
      exact hd.nodup.filter _
    · obtain ⟨⟨d, hd⟩, -⟩ := hlists p hp
      rw [hd.table]
      exact List.mem_append_left _ ((hd.mem a).mpr ha)

/-- 192.168.1.254, as `create_aodv_neigh` makes its entry. -/
def newNeigh : AodvNeigh where
  ip := 0xfe01a8c0
  lifetime := 0
  etx := ⟨0, 0, 0⟩
  ett :=
    { countRcv := 0
      lastCount := 0
      ettWindow := 4
      sec := 0
      usec := 0
      measDelay := defaultEttMetric
      recvDelays := delayVectorInit
      reset := 0
      interval := ettFastInterval
      fixedRate := 0 }
  loadMetric := ⟨0, 0, List.replicate neighTablesize 0⟩
  recvRate := 0
  sendRate := 0
  etxMetric := 0

theorem tx_table_kept_two : TxTableKept newNeigh [0x0201a8c0, 0x0301a8c0, 0x0201a8c0] :=
  (tx_table_kept_iff newNeigh _ rfl (by simp)).mpr (by decide)

/-- The addresses from 192.168.1.1 to 192.168.1.33. -/
def manyIps : List Ip := (List.range 33).map fun k ↦ UInt32.ofNat (0x0101a8c0 + k * 2 ^ 24)

/-- The last of them is written before the table, over the load and its
number. -/
theorem tx_table_overrun : ¬ TxTableKept newNeigh manyIps ∧
    (told newNeigh manyIps).loadMetric.load = 1 ∧ (told newNeigh manyIps).loadMetric.loadSeq = 0xa8c0 := by
  refine ⟨fun h ↦ ?_, by decide +kernel, by decide +kernel⟩
  have hin := (h.inBounds (manyIps.take 32) 0x2101a8c0 (by decide +kernel)).1
  revert hin
  decide +kernel

end Fbaodv.Proofs.NeighTx
