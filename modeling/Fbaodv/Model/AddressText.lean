import Fbaodv.Foundation.Numerals
import Fbaodv.Model.Wire

namespace Fbaodv.Model

open Fbaodv.Foundation

def ch (c : Char) : UInt8 := c.toUInt8

def isascii (c : UInt8) : Bool := c ≤ 0x7f

def isdigit (c : UInt8) : Bool := ch '0' ≤ c && c ≤ ch '9'

def isxdigit (c : UInt8) : Bool :=
  isdigit c || (ch 'a' ≤ c && c ≤ ch 'f') || (ch 'A' ≤ c && c ≤ ch 'F')

/-- `islower` and `isspace` by the table of the kernel, whose upper half is
that of Latin-1. -/
def islower (c : UInt8) : Bool := (ch 'a' ≤ c && c ≤ ch 'z') || (0xdf ≤ c && c ≠ 0xf7)

def isspace (c : UInt8) : Bool := (9 ≤ c && c ≤ 13) || c == 32 || c == 160

/-- `*cp`, where a string may end with its list. -/
def peek (cp : Bytes) : UInt8 := cp.headD 0

def digitChar (d : ℕ) : UInt8 := UInt8.ofNat (48 + d)

/-- What `sprintf` writes for `%d`, of a number that is not negative. -/
def formatD (n : ℕ) : Bytes := (numeral 10 n).map digitChar

/-- `4 * sizeof "123"` -/
def sizeofBuf : ℕ := 4 * 4

/-- The bytes that `inet_ntoa` writes to its buffer, with the closing NUL. -/
def inetNtoa (o : ByteOrder) (ina : UInt32) : Bytes :=
  let ucp := o.put 4 ina.toNat
  formatD (byteAt ucp 0 &&& 0xff).toNat ++ ch '.' :: formatD (byteAt ucp 1 &&& 0xff).toNat ++
    ch '.' :: formatD (byteAt ucp 2 &&& 0xff).toNat ++
    ch '.' :: formatD (byteAt ucp 3 &&& 0xff).toNat ++ [0]

/-- The base of a number, with what follows the prefix that names it. -/
def numberBase (cp : Bytes) : UInt32 × Bytes :=
  if peek cp = ch '0' then
    if peek cp.tail = ch 'x' ∨ peek cp.tail = ch 'X' then (16, cp.tail.tail) else (8, cp.tail)
  else (10, cp)

/-- The `while` loop of `inet_aton`. -/
def collect (base : UInt32) : UInt32 → Bytes → UInt32 × Bytes
  | val, [] => (val, [])
  | val, c :: cp =>
    if c = 0 then (val, c :: cp)
    else if isascii c && isdigit c then
      collect base (val * base + (c.toUInt32 - (ch '0').toUInt32)) cp
    else if base = 16 && isascii c && isxdigit c then
      collect base
        ((val <<< 4) +
          (c.toUInt32 + 10 - (if islower c then (ch 'a').toUInt32 else (ch 'A').toUInt32))) cp
    else (val, c :: cp)

/-- The `for` loop of `inet_aton`, with `left` for `parts + 3 - pp`: the
numbers before the last dot, the last number and what follows it. -/
def collectParts : ℕ → List UInt32 → Bytes → Option (List UInt32 × UInt32 × Bytes)
  | left, parts, cp =>
    let (base, cp) := numberBase cp
    let (val, cp) := collect base 0 cp
    if peek cp = ch '.' then
      match left with
      | 0 => none
      | left + 1 =>
        if 0xff < val then none else collectParts left (parts ++ [val]) cp.tail
    else some (parts, val, cp)

/-- The `switch` on the number of parts. -/
def concoct (parts : List UInt32) (val : UInt32) : Option UInt32 :=
  match parts with
  | [a] => if 0xffffff < val then none else some (val ||| a <<< 24)
  | [a, b] => if 0xffff < val then none else some (val ||| (a <<< 24 ||| b <<< 16))
  | [a, b, c] => if 0xff < val then none else some (val ||| (a <<< 24 ||| b <<< 16 ||| c <<< 8))
  | _ => some val

def htonl (o : ByteOrder) (v : UInt32) : UInt32 :=
  UInt32.ofNat (o.get (ByteOrder.big.put 4 v.toNat))

/-- `inet_aton`: what it returns, and what `*addr` holds after it; `none` for
a null pointer. -/
def inetAton (o : ByteOrder) (cp : Bytes) (addr : Option UInt32) : ℤ × Option UInt32 :=
  match collectParts 3 [] cp with
  | none => (0, addr)
  | some (parts, val, cp) =>
    if peek cp ≠ 0 ∧ (!isascii (peek cp) || !isspace (peek cp)) then (0, addr)
    else
      match concoct parts val with
      | none => (0, addr)
      | some val => (1, addr.map fun _ => htonl o val)

end Fbaodv.Model
