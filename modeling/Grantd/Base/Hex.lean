import Grantd.Base.Code
import Mathlib.Algebra.Group.Nat.Defs

/-!
# Hexadecimal text

Byte strings and numbers in lower-case hexadecimal digits.
-/

namespace Base.Hex

open Code (bigEndian)

def alphabet : List UInt8 := "0123456789abcdef".toUTF8.data.toList

def digit (n : Nat) : UInt8 := alphabet.getD n 0

def ofByte (b : UInt8) : List UInt8 := [digit (b.toNat / 16), digit (b.toNat % 16)]

def ofBytes (b : List UInt8) : List UInt8 := b.flatMap ofByte

def value (c : UInt8) : Nat := alphabet.idxOf c

/-- The last `w` digits of a number. -/
def fixed : Nat → Nat → List UInt8
  | 0, _ => []
  | w + 1, n => digit (n / 16 ^ w % 16) :: fixed w n

def number (w n : Nat) : List UInt8 :=
  if n < 16 ^ w then fixed w n else (Nat.toDigits 16 n).map fun c => UInt8.ofNat c.toNat

@[simp] theorem length_ofBytes (b : List UInt8) : (ofBytes b).length = 2 * b.length := by
  induction b with
  | nil => rfl
  | cons x xs ih =>
    rw [ofBytes, List.flatMap_cons, List.length_append, ← ofBytes, ih]
    simp only [ofByte, List.length_cons, List.length_nil]
    omega

theorem ofBytes_append (a b : List UInt8) : ofBytes (a ++ b) = ofBytes a ++ ofBytes b :=
  List.flatMap_append

theorem value_digit (h : n < 16) : value (digit n) = n := by
  have hall : ((List.range 16).all fun n => value (digit n) == n) = true := by decide
  exact beq_iff_eq.mp (List.all_eq_true.mp hall n (List.mem_range.mpr h))

theorem ofBytes_bigEndian (w n : Nat) : ofBytes (bigEndian w n) = fixed (2 * w) n := by
  induction w with
  | zero => rfl
  | succ w ih =>
    have hpow : 16 ^ (2 * w) = 256 ^ w := by
      rw [Nat.pow_mul]
    have hpow' : n / 16 ^ (2 * w + 1) = n / 256 ^ w / 16 := by
      rw [Nat.pow_succ, hpow, Nat.div_div_eq_div_mul]
    rw [bigEndian, ofBytes, List.flatMap_cons, ← ofBytes, ih,
      show 2 * (w + 1) = 2 * w + 1 + 1 by omega, fixed, fixed, hpow', hpow]
    simp only [ofByte, List.cons_append, List.nil_append, UInt8.toNat_ofNat']
    rw [show n / 256 ^ w % 2 ^ 8 / 16 = n / 256 ^ w / 16 % 16 by omega,
      show n / 256 ^ w % 2 ^ 8 % 16 = n / 256 ^ w % 16 by omega]

theorem number_eq (h : n < 256 ^ w) : number (2 * w) n = ofBytes (bigEndian w n) := by
  have hpow : 16 ^ (2 * w) = 256 ^ w := by rw [Nat.pow_mul]
  rw [number, if_pos (hpow ▸ h), ofBytes_bigEndian]

end Base.Hex
