import Fbaodv.Foundation.StructLayout

namespace Fbaodv.Foundation

/-- A value with its type and its length, as messages list them one behind the
other. -/
structure Attribute where
  type : UInt16
  value : Bytes
  deriving DecidableEq

namespace Attribute

def size (a : Attribute) : ℕ := 4 + a.value.length

/-- The length is a number of two bytes, and the next one starts at a multiple of
four. -/
structure Fits (a : Attribute) : Prop where
  aligned : a.size % 4 = 0
  short : a.size < 2 ^ 16

def bytes (o : ByteOrder) (a : Attribute) : Bytes := o.put 2 a.size ++ (o.put 2 a.type.toNat ++ a.value)

/-- The assignments that write it at an offset. -/
def stores (o : ByteOrder) (offset : ℕ) (a : Attribute) : List Store :=
  [⟨offset + 2, o.put 2 a.type.toNat⟩, ⟨offset, o.put 2 a.size⟩, ⟨offset + 4, a.value⟩]

def sizes (l : List Attribute) : ℕ := (l.map size).sum

/-- Each one is written where the one before ends. -/
def storesAll (o : ByteOrder) : ℕ → List Attribute → List Store
  | _, [] => []
  | offset, a :: l => a.stores o offset ++ storesAll o (offset + a.size) l

/-- The walk over the attributes, which ends at one that does not fit into the
rest. The number bounds the turns. -/
def walk (o : ByteOrder) : ℕ → Bytes → List Attribute
  | 0, _ => []
  | k + 1, l =>
    let len := o.get (field l 0 2)
    if len < 4 ∨ l.length < len then []
    else ⟨UInt16.ofNat (o.get (field l 2 2)), field l 4 (len - 4)⟩ :: walk o k (l.drop ((len + 3) / 4 * 4))

def readAll (o : ByteOrder) (l : Bytes) : List Attribute := walk o (l.length + 1) l

section Walk

variable {o : ByteOrder} {a : Attribute} {l : List Attribute} {k : ℕ}

theorem bytes_length (o : ByteOrder) (a : Attribute) : (a.bytes o).length = a.size := by
  simp only [bytes, size, List.length_append, ByteOrder.put_length]
  omega

theorem sizes_cons (a : Attribute) (l : List Attribute) : sizes (a :: l) = a.size + sizes l := by
  rw [sizes, List.map_cons, List.sum_cons, sizes]

theorem flatMap_bytes_length (o : ByteOrder) (l : List Attribute) : (l.flatMap (bytes o)).length = sizes l := by
  induction l with
  | nil => rfl
  | cons a l ih => rw [List.flatMap_cons, List.length_append, bytes_length, ih, sizes_cons]

/-- The walk finds the attributes that were written one behind the other. -/
theorem walk_flatMap (h : ∀ a ∈ l, a.Fits) (hk : l.length < k) : walk o k (l.flatMap (bytes o)) = l := by
  induction l generalizing k with
  | nil =>
    obtain ⟨k, rfl⟩ := Nat.exists_eq_succ_of_ne_zero (Nat.ne_of_gt hk)
    have hempty : o.get (field [] 0 2) = 0 := by cases o <;> rfl
    simp only [List.flatMap_nil, walk, hempty]
    rfl
  | cons a l ih =>
    obtain ⟨k, rfl⟩ := Nat.exists_eq_succ_of_ne_zero (Nat.ne_of_gt (Nat.zero_lt_of_lt hk))
    obtain ⟨haligned, hshort⟩ := h a List.mem_cons_self
    have hrest := ih (fun b hb ↦ h b (List.mem_cons_of_mem a hb)) (Nat.lt_of_succ_lt_succ hk)
    have hbytes := bytes_length o a
    have hsize : a.size = 4 + a.value.length := rfl
    have hlen : field (a.bytes o ++ l.flatMap (bytes o)) 0 2 = o.put 2 a.size := by
      rw [bytes, List.append_assoc, field, List.drop_zero]
      exact List.take_left' (o.put_length 2 a.size)
    have htype : field (a.bytes o ++ l.flatMap (bytes o)) 2 2 = o.put 2 a.type.toNat := by
      rw [bytes, List.append_assoc, field, List.drop_left' (o.put_length 2 a.size), List.append_assoc]
      exact List.take_left' (o.put_length 2 a.type.toNat)
    have hvalue : field (a.bytes o ++ l.flatMap (bytes o)) 4 (a.size - 4) = a.value := by
      have hhead : (o.put 2 a.size ++ o.put 2 a.type.toNat).length = 4 := by
        rw [List.length_append, ByteOrder.put_length, ByteOrder.put_length]
      rw [bytes, ← List.append_assoc, List.append_assoc _ a.value, field, List.drop_left' hhead]
      exact List.take_left' (by omega)
    have hget : o.get (o.put 2 a.size) = a.size := o.get_put hshort
    have hnum : o.get (o.put 2 a.type.toNat) = a.type.toNat := o.get_put a.type.toNat_lt
    have hround : (a.size + 3) / 4 * 4 = a.size := by omega
    have hguard : ¬ (a.size < 4 ∨ (a.bytes o ++ l.flatMap (bytes o)).length < a.size) := by
      rw [List.length_append, hbytes]
      omega
    rw [List.flatMap_cons, walk]
    simp only [hlen, hget, htype, hnum, hvalue]
    rw [if_neg hguard, hround, List.drop_left' hbytes, hrest, UInt16.ofNat_toNat]

theorem length_le_sizes (l : List Attribute) : l.length ≤ sizes l := by
  induction l with
  | nil => rfl
  | cons a l ih =>
    have hsize : a.size = 4 + a.value.length := rfl
    rw [List.length_cons, sizes_cons]
    omega

theorem readAll_flatMap (h : ∀ a ∈ l, a.Fits) : readAll o (l.flatMap (bytes o)) = l := by
  refine walk_flatMap h (Nat.lt_succ_of_le ?_)
  rw [flatMap_bytes_length]
  exact length_le_sizes l

end Walk

section Stores

variable {o : ByteOrder} {buf : Bytes} {offset : ℕ} {a : Attribute} {l : List Attribute}

theorem stores_within {s : Store} (hs : s ∈ a.stores o offset) : offset ≤ s.offset ∧ s.stop ≤ offset + a.size := by
  have hsize : a.size = 4 + a.value.length := rfl
  rcases List.mem_cons.mp hs with rfl | hs
  · simp only [Store.stop, ByteOrder.put_length]
    omega
  rcases List.mem_cons.mp hs with rfl | hs
  · simp only [Store.stop, ByteOrder.put_length]
    omega
  · obtain rfl := List.mem_singleton.mp hs
    simp only [Store.stop]
    omega

theorem storesAll_within {s : Store} (hs : s ∈ storesAll o offset l) :
    offset ≤ s.offset ∧ s.stop ≤ offset + sizes l := by
  induction l generalizing offset with
  | nil => cases hs
  | cons a l ih =>
    rw [sizes_cons]
    rcases List.mem_append.mp hs with hs | hs
    · obtain ⟨hlow, hhigh⟩ := stores_within hs
      omega
    · obtain ⟨hlow, hhigh⟩ := ih hs
      omega

theorem layout_stores (h : offset + a.size ≤ buf.length) : Layout buf.length (a.stores o offset) := by
  constructor
  · intro s hs
    exact (stores_within hs).2.trans h
  · simp only [stores, List.pairwise_cons, List.mem_cons, List.not_mem_nil, or_false, Store.Apart, Store.stop,
      ByteOrder.put_length, forall_eq_or_imp, forall_eq, List.Pairwise.nil, and_true, false_implies, implies_true]
    omega

theorem field_stores (h : offset + a.size ≤ buf.length) :
    field (storeAll buf (a.stores o offset)) offset a.size = a.bytes o := by
  have hlayout := layout_stores (o := o) h
  have htype := field_storeAll (s := ⟨offset + 2, o.put 2 a.type.toNat⟩) hlayout (by simp [stores])
  have hlen := field_storeAll (s := ⟨offset, o.put 2 a.size⟩) hlayout (by simp [stores])
  have hvalue := field_storeAll (s := ⟨offset + 4, a.value⟩) hlayout (by simp [stores])
  simp only [ByteOrder.put_length] at htype hlen
  have hsize : a.size = 2 + (2 + a.value.length) := by
    rw [size]
    omega
  calc field (storeAll buf (a.stores o offset)) offset a.size
      = field (storeAll buf (a.stores o offset)) offset 2 ++
          (field (storeAll buf (a.stores o offset)) (offset + 2) 2 ++
            field (storeAll buf (a.stores o offset)) (offset + 4) a.value.length) := by
        rw [hsize, field_add, field_add]
    _ = a.bytes o := by rw [htype, hlen, hvalue, bytes]

/-- What is written at an offset is there, one behind the other. -/
theorem field_storesAll (h : offset + sizes l ≤ buf.length) :
    field (storeAll buf (storesAll o offset l)) offset (sizes l) = l.flatMap (bytes o) := by
  induction l generalizing buf offset with
  | nil => rfl
  | cons a l ih =>
    rw [sizes_cons] at h ⊢
    have hhead : ∀ s ∈ a.stores o offset, s.stop ≤ buf.length := fun s hs ↦
      (stores_within hs).2.trans (by omega)
    have hlength := storeAll_length hhead
    have hrest : ∀ s ∈ storesAll o (offset + a.size) l, s.stop ≤ (storeAll buf (a.stores o offset)).length := by
      intro s hs
      have hstop := (storesAll_within hs).2
      omega
    have hfirst : field (storeAll (storeAll buf (a.stores o offset)) (storesAll o (offset + a.size) l)) offset a.size =
        a.bytes o := by
      rw [field_storeAll_of_apart hrest fun s hs ↦ .inl (storesAll_within hs).1]
      exact field_stores (by omega)
    rw [storesAll, storeAll_append, field_add, hfirst, ih (by omega), List.flatMap_cons]

end Stores

end Attribute

end Fbaodv.Foundation
