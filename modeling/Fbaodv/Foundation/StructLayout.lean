import Fbaodv.Foundation.ByteCodec

namespace Fbaodv.Foundation

/-- A value that an assignment stores at an offset of a struct. -/
structure Store where
  offset : ℕ
  value : Bytes

namespace Store

def stop (s : Store) : ℕ := s.offset + s.value.length

def write (s : Store) (l : Bytes) : Bytes := l.take s.offset ++ (s.value ++ l.drop s.stop)

/-- Two stores that touch no common byte. -/
def Apart (s s' : Store) : Prop := s.stop ≤ s'.offset ∨ s'.stop ≤ s.offset

instance (s s' : Store) : Decidable (s.Apart s') := inferInstanceAs (Decidable (_ ∨ _))

variable {s : Store} {l : Bytes} {offset k : ℕ}

theorem write_length (h : s.stop ≤ l.length) : (s.write l).length = l.length := by
  have hstop : s.stop = s.offset + s.value.length := rfl
  simp only [write, List.length_append, List.length_take, List.length_drop]
  omega

theorem field_write_self (h : s.stop ≤ l.length) :
    field (s.write l) s.offset s.value.length = s.value := by
  have hstop : s.stop = s.offset + s.value.length := rfl
  have htake : (l.take s.offset).length = s.offset := by
    rw [List.length_take]
    omega
  have hdrop : (s.write l).drop s.offset = s.value ++ l.drop s.stop := by
    rw [write, List.drop_append, htake, Nat.sub_self, List.drop_zero,
      List.drop_eq_nil_of_le htake.le, List.nil_append]
  rw [field, hdrop, List.take_left]

/-- A read that overlaps no byte of the store finds what was there before. -/
theorem field_write_of_apart (h : s.stop ≤ l.length) (hk : offset + k ≤ s.offset ∨ s.stop ≤ offset) :
    field (s.write l) offset k = field l offset k := by
  have hstop : s.stop = s.offset + s.value.length := rfl
  have htake : (l.take s.offset).length = s.offset := by
    rw [List.length_take]
    omega
  rcases hk with hbefore | hafter
  · have hzero : offset - s.offset = 0 := by omega
    have hdrop : (s.write l).drop offset =
        (l.drop offset).take (s.offset - offset) ++ (s.value ++ l.drop s.stop) := by
      rw [write, List.drop_append, htake, List.drop_take, hzero, List.drop_zero]
    have hlen : k ≤ ((l.drop offset).take (s.offset - offset)).length := by
      rw [List.length_take, List.length_drop]
      omega
    rw [field, hdrop, List.take_append_of_le_length hlen, List.take_take, field,
      Nat.min_eq_left (by omega)]
  · have hvalue : offset - s.offset = s.value.length + (offset - s.stop) := by omega
    have hdrop : (s.write l).drop offset = l.drop offset := by
      rw [write, List.drop_append, htake, List.drop_eq_nil_of_le (by omega), List.nil_append, hvalue,
        List.drop_append, List.drop_eq_nil_of_le (by omega), List.nil_append, List.drop_drop]
      congr 1
      omega
    rw [field, hdrop, field]

end Store

/-- The stores of one assignment after the other. -/
def storeAll (l : Bytes) : List Store → Bytes
  | [] => l
  | s :: ss => storeAll (s.write l) ss

/-- The fields of a struct of a size: each inside of it, and no two overlap. -/
structure Layout (size : ℕ) (ss : List Store) : Prop where
  inside : ∀ s ∈ ss, s.stop ≤ size
  apart : ss.Pairwise Store.Apart

section Layout

variable {ss : List Store} {s : Store} {l : Bytes} {offset k : ℕ}

theorem storeAll_append (buf : Bytes) (ss ss' : List Store) :
    storeAll buf (ss ++ ss') = storeAll (storeAll buf ss) ss' := by
  induction ss generalizing buf with
  | nil => rfl
  | cons s ss ih => exact ih (s.write buf)

theorem storeAll_length (h : ∀ s ∈ ss, s.stop ≤ l.length) : (storeAll l ss).length = l.length := by
  induction ss generalizing l with
  | nil => rfl
  | cons s ss ih =>
    have hlen := Store.write_length (h s List.mem_cons_self)
    rw [storeAll, ih, hlen]
    intro s' hs'
    rw [hlen]
    exact h s' (List.mem_cons_of_mem s hs')

theorem field_storeAll_of_apart (h : ∀ s ∈ ss, s.stop ≤ l.length)
    (hk : ∀ s ∈ ss, offset + k ≤ s.offset ∨ s.stop ≤ offset) :
    field (storeAll l ss) offset k = field l offset k := by
  induction ss generalizing l with
  | nil => rfl
  | cons s ss ih =>
    have hs := h s List.mem_cons_self
    have hlen := Store.write_length hs
    have hrest : ∀ s' ∈ ss, s'.stop ≤ (s.write l).length := by
      intro s' hs'
      rw [hlen]
      exact h s' (List.mem_cons_of_mem s hs')
    rw [storeAll, ih hrest fun s' hs' ↦ hk s' (List.mem_cons_of_mem s hs')]
    exact Store.field_write_of_apart hs (hk s List.mem_cons_self)

/-- Each field of a struct reads as what was stored there. -/
theorem field_storeAll (h : Layout l.length ss) (hs : s ∈ ss) :
    field (storeAll l ss) s.offset s.value.length = s.value := by
  induction ss generalizing l with
  | nil => cases hs
  | cons s' ss ih =>
    have hs' := h.inside s' List.mem_cons_self
    have hlen := Store.write_length hs'
    obtain ⟨hapart, hpairs⟩ := List.pairwise_cons.mp h.apart
    have hinside : ∀ x ∈ ss, x.stop ≤ (s'.write l).length := by
      intro x hx
      rw [hlen]
      exact h.inside x (List.mem_cons_of_mem s' hx)
    rw [storeAll]
    rcases List.mem_cons.mp hs with rfl | hs
    · rw [field_storeAll_of_apart hinside hapart]
      exact Store.field_write_self hs'
    · exact ih ⟨hinside, hpairs⟩ hs

end Layout

end Fbaodv.Foundation
