import Mathlib.Data.List.Basic
import Mathlib.Tactic.Ring

namespace Fbaodv.Foundation

abbrev Bytes := List UInt8

inductive ByteOrder
  | little
  | big
  deriving DecidableEq

/-- The `k` lowest digits of a number in base 256, lowest first. -/
def digits : ℕ → ℕ → Bytes
  | 0, _ => []
  | k + 1, v => UInt8.ofNat v :: digits k (v / 256)

def ofDigits : Bytes → ℕ
  | [] => 0
  | b :: l => b.toNat + 256 * ofDigits l

theorem digits_length (k v : ℕ) : (digits k v).length = k := by
  induction k generalizing v with
  | zero => rfl
  | succ k ih => simp only [digits, List.length_cons, ih]

theorem ofDigits_digits {k v : ℕ} (h : v < 256 ^ k) : ofDigits (digits k v) = v := by
  induction k generalizing v with
  | zero =>
    rw [pow_zero, Nat.lt_one_iff] at h
    rw [h, digits, ofDigits]
  | succ k ih =>
    have hdiv : v / 256 < 256 ^ k := by
      rw [Nat.div_lt_iff_lt_mul (by norm_num), ← pow_succ]
      exact h
    have hmod : (UInt8.ofNat v).toNat = v % 256 := UInt8.toNat_ofNat'
    rw [digits, ofDigits, ih hdiv, hmod, Nat.mod_add_div]

theorem digits_ofDigits (l : Bytes) : digits l.length (ofDigits l) = l := by
  induction l with
  | nil => rfl
  | cons b l ih =>
    have hb := b.toNat_lt
    have hlow : UInt8.ofNat (b.toNat + 256 * ofDigits l) = b := by
      apply UInt8.toNat.inj
      rw [UInt8.toNat_ofNat']
      omega
    have hrest : (b.toNat + 256 * ofDigits l) / 256 = ofDigits l := by omega
    rw [ofDigits, List.length_cons, digits, hlow, hrest, ih]

theorem ofDigits_lt (l : Bytes) : ofDigits l < 256 ^ l.length := by
  induction l with
  | nil => simp [ofDigits]
  | cons b l ih =>
    have hb := b.toNat_lt
    rw [ofDigits, List.length_cons, pow_succ]
    omega

namespace ByteOrder

def arrange : ByteOrder → Bytes → Bytes
  | little, l => l
  | big, l => l.reverse

/-- A number of `k` bytes in memory. -/
def put (o : ByteOrder) (k v : ℕ) : Bytes := o.arrange (digits k v)

def get (o : ByteOrder) (l : Bytes) : ℕ := ofDigits (o.arrange l)

@[simp] theorem put_length (o : ByteOrder) (k v : ℕ) : (o.put k v).length = k := by
  cases o <;> simp [put, arrange, digits_length]

theorem get_put (o : ByteOrder) {k v : ℕ} (h : v < 256 ^ k) : o.get (o.put k v) = v := by
  cases o <;> simp only [get, put, arrange, List.reverse_reverse, ofDigits_digits h]

theorem put_get (o : ByteOrder) (l : Bytes) : o.put l.length (o.get l) = l := by
  cases o with
  | little => exact digits_ofDigits l
  | big =>
    have h := digits_ofDigits l.reverse
    rw [List.length_reverse] at h
    rw [put, get, arrange, arrange, h, List.reverse_reverse]

theorem get_lt (o : ByteOrder) (l : Bytes) : o.get l < 256 ^ l.length := by
  cases o with
  | little => exact ofDigits_lt l
  | big =>
    have h := ofDigits_lt l.reverse
    rw [List.length_reverse] at h
    exact h

end ByteOrder

/-- The field of `k` bytes at an offset. -/
def field (l : Bytes) (offset k : ℕ) : Bytes := (l.drop offset).take k

theorem field_drop (l : Bytes) (offset p k : ℕ) :
    field (l.drop offset) p k = field l (offset + p) k := by
  rw [field, field, List.drop_drop]

theorem field_length {l : Bytes} {offset k : ℕ} (h : offset + k ≤ l.length) :
    (field l offset k).length = k := by
  rw [field, List.length_take, List.length_drop]
  omega

theorem field_add (l : Bytes) (offset k k' : ℕ) :
    field l offset (k + k') = field l offset k ++ field l (offset + k) k' := by
  rw [field, field, field, List.take_add, List.drop_drop]

/-- The loop that reads `k` records of one size, one after the other. -/
def readRecords {α : Type} (read : Bytes → α) (size : ℕ) : ℕ → Bytes → List α
  | 0, _ => []
  | k + 1, l => read l :: readRecords read size k (l.drop size)

section Records

variable {α : Type} {read : Bytes → α} {write : α → Bytes} {size : ℕ}

theorem readRecords_length (k : ℕ) (l : Bytes) : (readRecords read size k l).length = k := by
  induction k generalizing l with
  | zero => rfl
  | succ k ih => rw [readRecords, List.length_cons, ih]

theorem flatMap_length (hsize : ∀ x, (write x).length = size) (xs : List α) :
    (xs.flatMap write).length = size * xs.length := by
  induction xs with
  | nil => rfl
  | cons x xs ih =>
    rw [List.flatMap_cons, List.length_append, hsize, ih, List.length_cons]
    ring

/-- Records written one after the other are read one by one. -/
theorem readRecords_flatMap_map {f : α → α} (hsize : ∀ x, (write x).length = size)
    (hread : ∀ x rest, read (write x ++ rest) = f x) (xs : List α) (rest : Bytes) :
    readRecords read size xs.length (xs.flatMap write ++ rest) = xs.map f := by
  induction xs with
  | nil => rfl
  | cons x xs ih =>
    have hdrop : (write x ++ (xs.flatMap write ++ rest)).drop size = xs.flatMap write ++ rest := by
      rw [← hsize x, List.drop_left]
    rw [List.flatMap_cons, List.append_assoc, List.length_cons, readRecords, hread, hdrop, ih,
      List.map_cons]

theorem readRecords_flatMap (hsize : ∀ x, (write x).length = size)
    (hread : ∀ x rest, read (write x ++ rest) = x) (xs : List α) (rest : Bytes) :
    readRecords read size xs.length (xs.flatMap write ++ rest) = xs := by
  rw [readRecords_flatMap_map (f := id) hsize hread, List.map_id]

end Records

end Fbaodv.Foundation
