import Fbaodv.Model.AddressText

namespace Fbaodv.Proofs

open Fbaodv.Foundation Fbaodv.Model

/-- A decimal number up to 255 without superfluous zeros. -/
structure Octet where
  digits : List ℕ
  isNumeral : IsNumeral 10 digits
  le : spelled 10 digits ≤ 255

namespace Octet

def text (a : Octet) : Bytes := a.digits.map digitChar

def byte (a : Octet) : UInt8 := UInt8.ofNat (spelled 10 a.digits)

def ofByte (m : UInt8) : Octet where
  digits := numeral 10 m.toNat
  isNumeral := isNumeral_numeral (by norm_num) m.toNat
  le := by
    rw [spelled_numeral]
    have hm := m.toNat_lt
    omega

theorem byte_toNat (a : Octet) : a.byte.toNat = spelled 10 a.digits := by
  have hle := a.le
  rw [byte, UInt8.toNat_ofNat']
  omega

theorem byte_ofByte (m : UInt8) : (ofByte m).byte = m := by
  apply UInt8.toNat.inj
  rw [byte_toNat]
  exact spelled_numeral 10 m.toNat

theorem formatD_byte (a : Octet) : formatD a.byte.toNat = a.text := by
  rw [formatD, byte_toNat, numeral_spelled (by norm_num) a.isNumeral, text]

theorem text_length_le (a : Octet) : a.text.length ≤ 3 := by
  have hle := a.le
  rw [← formatD_byte, byte_toNat, formatD, List.length_map]
  apply numeral_length_le (by norm_num) (by norm_num)
  omega

end Octet

structure DottedQuad where
  a : Octet
  b : Octet
  c : Octet
  d : Octet

namespace DottedQuad

def text (s : DottedQuad) : Bytes :=
  s.a.text ++ ch '.' :: s.b.text ++ ch '.' :: s.c.text ++ ch '.' :: s.d.text

def bytes (s : DottedQuad) : Bytes := [s.a.byte, s.b.byte, s.c.byte, s.d.byte]

/-- The address whose bytes in memory are the four numbers. -/
def address (o : ByteOrder) (s : DottedQuad) : UInt32 := UInt32.ofNat (o.get s.bytes)

def ofAddress (o : ByteOrder) (x : UInt32) : DottedQuad :=
  let ucp := o.put 4 x.toNat
  ⟨.ofByte (byteAt ucp 0), .ofByte (byteAt ucp 1), .ofByte (byteAt ucp 2), .ofByte (byteAt ucp 3)⟩

end DottedQuad

/-- The end of the string, or ASCII white space. -/
def Ends (t : Bytes) : Prop := peek t ∈ ([0, 9, 10, 11, 12, 13, 32] : List UInt8)

/-- What ends a decimal number and is not taken for the prefix of another base. -/
def Stops (t : Bytes) : Prop :=
  isdigit (peek t) = false ∧ peek t ≠ ch 'x' ∧ peek t ≠ ch 'X'

theorem stops_dot (t : Bytes) : Stops (ch '.' :: t) := by
  have hdot : isdigit (ch '.') = false ∧ ch '.' ≠ ch 'x' ∧ ch '.' ≠ ch 'X' := by decide
  exact hdot

theorem Ends.stops {t : Bytes} (h : Ends t) : Stops t := by
  simp only [Ends, List.mem_cons, List.not_mem_nil, or_false] at h
  rcases h with h | h | h | h | h | h | h <;> rw [Stops, h] <;> decide

theorem Ends.ne_dot {t : Bytes} (h : Ends t) : peek t ≠ ch '.' := by
  intro hdot
  rw [Ends, hdot] at h
  exact absurd h (by decide)

theorem Ends.accepted {t : Bytes} (h : Ends t) :
    ¬ (peek t ≠ 0 ∧ (!isascii (peek t) || !isspace (peek t)) = true) := by
  simp only [Ends, List.mem_cons, List.not_mem_nil, or_false] at h
  rcases h with h | h | h | h | h | h | h <;> rw [h] <;> decide

section Numbers

theorem digitChar_spec {d : ℕ} (hd : d < 10) :
    digitChar d ≠ 0 ∧ isascii (digitChar d) = true ∧ isdigit (digitChar d) = true ∧
      (digitChar d).toUInt32 - (ch '0').toUInt32 = UInt32.ofNat d := by
  interval_cases d <;> decide

theorem digitChar_ne_zeroChar {d : ℕ} (hd : d < 10) (hne : d ≠ 0) : digitChar d ≠ ch '0' := by
  interval_cases d
  · exact absurd rfl hne
  all_goals decide

theorem collect_stops {base val : UInt32} {t : Bytes} (hbase : base ≠ 16) (ht : Stops t) :
    collect base val t = (val, t) := by
  cases t with
  | nil => rfl
  | cons c t =>
    have hdigit : isdigit c = false := ht.1
    simp [collect, hdigit, hbase]

/-- A run of digits is collected up to what stops it, in the arithmetic of `val`. -/
theorem collect_digits {l : List ℕ} {t : Bytes} (hl : ∀ d ∈ l, d < 10) (ht : Stops t) (v : ℕ) :
    collect 10 (UInt32.ofNat v) (l.map digitChar ++ t) =
      (UInt32.ofNat (l.foldl (fun v d => v * 10 + d) v), t) := by
  induction l generalizing v with
  | nil => exact collect_stops (by decide) ht
  | cons d l ih =>
    obtain ⟨hnz, hascii, hdigit, hval⟩ := digitChar_spec (hl d List.mem_cons_self)
    have hstep : UInt32.ofNat v * 10 + UInt32.ofNat d = UInt32.ofNat (v * 10 + d) := by
      rw [UInt32.ofNat_add, UInt32.ofNat_mul]
      rfl
    rw [List.map_cons, List.cons_append, collect, if_neg hnz, hascii, hdigit, hval,
      hstep, List.foldl_cons]
    exact ih (fun x hx => hl x (List.mem_cons_of_mem d hx)) _

/-- `inet_aton` reads a number as it is meant: a leading zero stands alone, and
the base that it switches to makes no difference. -/
theorem Octet.collected (a : Octet) {t : Bytes} (ht : Stops t) :
    collect (numberBase (a.text ++ t)).1 0 (numberBase (a.text ++ t)).2 =
      (a.byte.toUInt32, t) := by
  have hvalue : a.byte.toUInt32 = UInt32.ofNat (spelled 10 a.digits) := by
    apply UInt32.toNat.inj
    have hle := a.le
    rw [UInt8.toNat_toUInt32, a.byte_toNat, UInt32.toNat_ofNat']
    omega
  obtain ⟨d, l, hdl⟩ := List.exists_cons_of_ne_nil a.isNumeral.ne_nil
  have htext : a.text = digitChar d :: l.map digitChar := by rw [Octet.text, hdl, List.map_cons]
  by_cases hd : d = 0
  · have hzero : a.digits = [0] := by
      apply a.isNumeral.lead
      rw [hdl, hd]
      rfl
    have hl : l = [] := by
      rw [hdl] at hzero
      exact (List.cons.inj hzero).2
    have hzeroChar : peek (digitChar 0 :: t) = ch '0' := rfl
    have hbase : numberBase (a.text ++ t) = (8, t) := by
      rw [htext, hl, hd, List.map_nil, List.cons_append, List.nil_append, numberBase,
        if_pos hzeroChar, List.tail_cons, if_neg (not_or.mpr ht.2)]
    have h8 : (8 : UInt32) ≠ 16 := by decide
    rw [hbase, hvalue, hzero]
    exact collect_stops h8 ht
  · have hd10 : d < 10 := a.isNumeral.lt_base d (by rw [hdl]; exact List.mem_cons_self)
    have hbase : numberBase (a.text ++ t) = (10, a.text ++ t) := by
      rw [numberBase, if_neg]
      rw [htext]
      exact digitChar_ne_zeroChar hd10 hd
    rw [hbase, hvalue]
    exact collect_digits a.isNumeral.lt_base ht 0

theorem collectParts_dot (a : Octet) (left : ℕ) (parts : List UInt32) (t : Bytes) :
    collectParts (left + 1) parts (a.text ++ ch '.' :: t) =
      collectParts left (parts ++ [a.byte.toUInt32]) t := by
  have hsmall : ¬ 0xff < a.byte.toUInt32 := by
    rw [UInt32.lt_iff_toNat_lt, UInt8.toNat_toUInt32]
    have hbyte := a.byte.toNat_lt
    exact not_lt.mpr (Nat.le_of_lt_succ hbyte)
  rw [collectParts]
  simp only [a.collected (stops_dot t)]
  have hdot : peek (ch '.' :: t) = ch '.' := rfl
  rw [if_pos hdot, if_neg hsmall, List.tail_cons]

theorem collectParts_last (a : Octet) (left : ℕ) (parts : List UInt32) {t : Bytes} (ht : Ends t) :
    collectParts left parts (a.text ++ t) = some (parts, a.byte.toUInt32, t) := by
  rw [collectParts.eq_def]
  simp only [a.collected ht.stops]
  exact if_neg ht.ne_dot

end Numbers

section Words

theorem or_shift {a b : ℕ} (i : ℕ) (ha : a * 2 ^ i < 2 ^ 32) (hb : b < 2 ^ i) :
    a <<< i % 2 ^ 32 ||| b = a * 2 ^ i + b := by
  rw [Nat.shiftLeft_eq, Nat.mod_eq_of_lt ha, Nat.mul_comm, ← Nat.two_pow_add_eq_or_of_lt hb]

theorem concoct_bytes (a b c d : UInt8) :
    concoct [a.toUInt32, b.toUInt32, c.toUInt32] d.toUInt32 =
      some (UInt32.ofNat (ByteOrder.big.get [a, b, c, d])) := by
  have ha := a.toNat_lt
  have hb := b.toNat_lt
  have hc := c.toNat_lt
  have hd := d.toNat_lt
  have hsmall : ¬ 0xff < d.toUInt32 := by
    rw [UInt32.lt_iff_toNat_lt, UInt8.toNat_toUInt32]
    exact not_lt.mpr (Nat.le_of_lt_succ hd)
  have hcd : c.toNat <<< 8 % 2 ^ 32 ||| d.toNat = c.toNat * 2 ^ 8 + d.toNat :=
    or_shift 8 (by omega) (by omega)
  have hbcd : b.toNat <<< 16 % 2 ^ 32 ||| (c.toNat * 2 ^ 8 + d.toNat) =
      b.toNat * 2 ^ 16 + (c.toNat * 2 ^ 8 + d.toNat) := or_shift 16 (by omega) (by omega)
  have habcd : a.toNat <<< 24 % 2 ^ 32 ||| (b.toNat * 2 ^ 16 + (c.toNat * 2 ^ 8 + d.toNat)) =
      a.toNat * 2 ^ 24 + (b.toNat * 2 ^ 16 + (c.toNat * 2 ^ 8 + d.toNat)) :=
    or_shift 24 (by omega) (by omega)
  have hget : ByteOrder.big.get [a, b, c, d] =
      a.toNat * 2 ^ 24 + (b.toNat * 2 ^ 16 + (c.toNat * 2 ^ 8 + d.toNat)) := by
    simp only [ByteOrder.get, ByteOrder.arrange, List.reverse_cons, List.reverse_nil,
      List.nil_append, List.cons_append, ofDigits]
    ring
  rw [concoct, if_neg hsmall, Option.some.injEq]
  apply UInt32.toNat.inj
  have hword : UInt32.toNat (d.toUInt32 ||| (a.toUInt32 <<< 24 ||| b.toUInt32 <<< 16 |||
      c.toUInt32 <<< 8)) =
      d.toNat ||| (a.toNat <<< 24 % 2 ^ 32 ||| b.toNat <<< 16 % 2 ^ 32 |||
        c.toNat <<< 8 % 2 ^ 32) := rfl
  rw [hword, Nat.or_comm, Nat.or_assoc, hcd, Nat.or_assoc, hbcd, habcd, hget, UInt32.toNat_ofNat']
  omega

theorem htonl_get (o : ByteOrder) {l : Bytes} (hl : l.length = 4) :
    htonl o (UInt32.ofNat (ByteOrder.big.get l)) = UInt32.ofNat (o.get l) := by
  have hlt := ByteOrder.big.get_lt l
  have hput := ByteOrder.big.put_get l
  rw [hl] at hlt hput
  rw [htonl, UInt32.toNat_ofNat', Nat.mod_eq_of_lt (by exact hlt), hput]

theorem put_ofNat_get (o : ByteOrder) {l : Bytes} (hl : l.length = 4) :
    o.put 4 (UInt32.ofNat (o.get l)).toNat = l := by
  have hlt := o.get_lt l
  have hput := o.put_get l
  rw [hl] at hlt hput
  rw [UInt32.toNat_ofNat', Nat.mod_eq_of_lt (by exact hlt), hput]

theorem ofNat_get_put (o : ByteOrder) (x : UInt32) : UInt32.ofNat (o.get (o.put 4 x.toNat)) = x := by
  rw [o.get_put (by exact x.toNat_lt), UInt32.ofNat_toNat]

end Words

namespace DottedQuad

theorem inetNtoa_address (o : ByteOrder) (s : DottedQuad) :
    inetNtoa o (s.address o) = s.text ++ [0] := by
  have hmask : ∀ m : UInt8, m &&& 0xff = m := by
    intro m
    apply UInt8.toNat.inj
    rw [UInt8.toNat_and]
    exact (Nat.and_two_pow_sub_one_eq_mod _ 8).trans (Nat.mod_eq_of_lt m.toNat_lt)
  have hucp : o.put 4 (s.address o).toNat = s.bytes := put_ofNat_get o rfl
  simp only [inetNtoa, hucp, hmask]
  simp only [bytes, byteAt, List.getD_cons_zero, List.getD_cons_succ, Octet.formatD_byte, text]

theorem address_ofAddress (o : ByteOrder) (x : UInt32) : (ofAddress o x).address o = x := by
  have hbytes : (ofAddress o x).bytes = o.put 4 x.toNat := by
    obtain ⟨a, b, c, d, hucp⟩ : ∃ a b c d, o.put 4 x.toNat = [a, b, c, d] := by
      have hlen := o.put_length 4 x.toNat
      match hput : o.put 4 x.toNat, hlen with
      | [a, b, c, d], _ => exact ⟨a, b, c, d, rfl⟩
    simp only [bytes, ofAddress, hucp, Octet.byte_ofByte]
    rfl
  rw [address, hbytes]
  exact ofNat_get_put o x

theorem text_length_le (s : DottedQuad) : s.text.length + 1 ≤ sizeofBuf := by
  have ha := s.a.text_length_le
  have hb := s.b.text_length_le
  have hc := s.c.text_length_le
  have hd := s.d.text_length_le
  simp only [text, sizeofBuf, List.length_append, List.length_cons]
  omega

theorem inetAton_text (o : ByteOrder) (s : DottedQuad) {t : Bytes} (ht : Ends t)
    (addr : Option UInt32) :
    inetAton o (s.text ++ t) addr = (1, addr.map fun _ => s.address o) := by
  have hparts : collectParts 3 [] (s.text ++ t) =
      some ([s.a.byte.toUInt32, s.b.byte.toUInt32, s.c.byte.toUInt32], s.d.byte.toUInt32, t) := by
    simp only [text, List.append_assoc, List.cons_append]
    rw [collectParts_dot, collectParts_dot, collectParts_dot, collectParts_last s.d _ _ ht]
    rfl
  rw [inetAton, hparts]
  simp only [if_neg ht.accepted, concoct_bytes]
  rw [htonl_get o rfl]
  rfl

end DottedQuad

/-- `inet_ntoa` and `inet_aton` undo each other. -/
theorem address_round_trip (o : ByteOrder) :
    (∀ (x : UInt32) (stale : Bytes) (old : UInt32),
      (inetNtoa o x).length ≤ sizeofBuf ∧
        inetAton o (inetNtoa o x ++ stale) (some old) = (1, some x)) ∧
    ∀ (s : DottedQuad) (t : { t : Bytes // Ends t }) (old : UInt32),
      ∃ x, inetAton o (s.text ++ t.val) (some old) = (1, some x) ∧
        inetNtoa o x = s.text ++ [0] := by
  constructor
  · intro x stale old
    have hx := DottedQuad.address_ofAddress o x
    have htext := DottedQuad.inetNtoa_address o (DottedQuad.ofAddress o x)
    rw [hx] at htext
    constructor
    · rw [htext, List.length_append]
      exact (DottedQuad.ofAddress o x).text_length_le
    · have hends : Ends ([0] ++ stale) := by
        rw [Ends]
        exact List.mem_cons_self
      rw [htext, List.append_assoc, DottedQuad.inetAton_text o _ hends, hx]
      rfl
  · intro s t old
    refine ⟨s.address o, ?_, ?_⟩
    · exact DottedQuad.inetAton_text o s t.property (some old)
    · exact s.inetNtoa_address o

end Fbaodv.Proofs
