import Grantd.Base.Hex
import Grantd.Base.Rfc4648

/-!
# Leading zeros

A byte string begins with so many zero bits when the number they spell is
zero. Cut into groups of any size, that is a number of groups that are zero
and the upper part of one more. Bytes are its groups of eight bits, and
hexadecimal digits those of four.
-/

namespace Base.LeadingZeros

open Rfc4648

def Zeros (bytes : List UInt8) (n : Nat) : Prop := value (bitAt bytes) n = 0

theorem value_groups (f : Nat → Bool) (k q : Nat) :
    value f (k * q) = 0 ↔ ∀ i < q, value (fun j => f (k * i + j)) k = 0 := by
  induction q with
  | zero => simp [value]
  | succ q ih =>
    have hpos : 0 < 2 ^ k := Nat.two_pow_pos k
    rw [Nat.mul_succ, value_add, Nat.add_eq_zero_iff, Nat.mul_eq_zero, ih]
    constructor
    · rintro ⟨hbefore | hpow, hlast⟩ i hi
      · rcases Nat.lt_succ_iff_lt_or_eq.mp hi with hlt | rfl
        · exact hbefore i hlt
        · exact hlast
      · omega
    · intro h
      exact ⟨.inl fun i hi => h i (by omega), h q (by omega)⟩

theorem value_div (f : Nat → Bool) (h : r ≤ k) : value f k / 2 ^ (k - r) = value f r := by
  have hsplit := value_add f r (k - r)
  have hlow := value_lt (fun j => f (r + j)) (k - r)
  rw [Nat.add_sub_cancel' h] at hsplit
  rw [hsplit, Nat.mul_comm, Nat.mul_add_div (Nat.two_pow_pos _), Nat.div_eq_of_lt hlow,
    Nat.add_zero]

theorem zeros_groups (bytes : List UInt8) (q : Nat) (h : r ≤ k) :
    Zeros bytes (k * q + r) ↔
      (∀ i < q, digit k bytes i = 0) ∧ digit k bytes q / 2 ^ (k - r) = 0 := by
  have hpos : 0 < 2 ^ r := Nat.two_pow_pos r
  rw [Zeros, value_add, Nat.add_eq_zero_iff, Nat.mul_eq_zero, value_groups, digit, value_div _ h]
  simp only [Nat.ne_of_gt hpos, or_false, digit]

theorem digit_eight (bytes : List UInt8) (i : Nat) : digit 8 bytes i = (bytes.getD i 0).toNat := by
  have hbits := value_bits (s := 0) (b := 8) (bytes.getD i 0).toNat (by decide)
  have hlt := (bytes.getD i 0).toNat_lt
  rw [Nat.sub_zero, Nat.sub_self, Nat.pow_zero, Nat.div_one, Nat.mod_eq_of_lt hlt] at hbits
  rw [← hbits]
  refine value_congr fun j hj => ?_
  rw [bitAt, show (8 * i + j) / 8 = i by omega, show (8 * i + j) % 8 = j by omega, Nat.zero_add]

theorem zeros_cons_le (x : UInt8) (l : List UInt8) (h : n ≤ 8) :
    Zeros (x :: l) n ↔ x.toNat / 2 ^ (8 - n) = 0 := by
  have hgroups := zeros_groups (x :: l) 0 h
  rw [Nat.mul_zero, Nat.zero_add, digit_eight, List.getD_cons_zero] at hgroups
  simpa using hgroups

theorem zeros_cons_add (x : UInt8) (l : List UInt8) (n : Nat) :
    Zeros (x :: l) (8 + n) ↔ x = 0 ∧ Zeros l n := by
  have hpos : 2 ^ n ≠ 0 := Nat.ne_of_gt (Nat.two_pow_pos n)
  have hfirst : value (bitAt (x :: l)) 8 = x.toNat := by
    have h := digit_eight (x :: l) 0
    simpa only [digit, Nat.mul_zero, Nat.zero_add, List.getD_cons_zero] using h
  have hrest : value (fun j => bitAt (x :: l) (8 + j)) n = value (bitAt l) n :=
    value_congr fun _ _ => bitAt_cons_add x l
  rw [Zeros, value_add, Nat.add_eq_zero_iff, Nat.mul_eq_zero, hfirst, hrest, Zeros,
    ← UInt8.toNat_inj]
  simp only [hpos, or_false]
  rfl

theorem zeros_bytes (h : n ≤ 8 * bytes.length) :
    Zeros bytes n ↔ (∀ i < n / 8, bytes[i]? = some 0) ∧
      (n % 8 = 0 ∨ (bytes.getD (n / 8) 0).toNat / 2 ^ (8 - n % 8) = 0) := by
  have hgroups := zeros_groups bytes (n / 8) (Nat.le_of_lt (Nat.mod_lt n (by decide : 8 > 0)))
  rw [Nat.div_add_mod] at hgroups
  rw [hgroups]
  refine and_congr (forall₂_congr fun i hi => ?_) ?_
  · have hlt : i < bytes.length := by omega
    rw [digit_eight, List.getD_eq_getElem _ _ hlt, List.getElem?_eq_getElem hlt, Option.some.injEq,
      ← UInt8.toNat_inj]
    rfl
  · rw [digit_eight]
    constructor
    · exact .inr
    · rintro (hzero | hpart)
      · rw [hzero]
        exact Nat.div_eq_of_lt (bytes.getD (n / 8) 0).toNat_lt
      · exact hpart

-- ---------------------------------------------------------------------------
-- Hexadecimal digits
-- ---------------------------------------------------------------------------

theorem digits_four_cons (x : UInt8) (l : List UInt8) :
    digits 4 (x :: l) = x.toNat / 16 :: x.toNat % 16 :: digits 4 l := by
  have hlen : groups 4 (x :: l).length = groups 4 l.length + 2 := by
    simp only [groups, List.length_cons]
    omega
  have hfirst : digit 4 (x :: l) 0 = x.toNat / 16 := by
    have hlt := x.toNat_lt
    have h := value_head x l (s := 0) (b := 4) (by decide)
    simp only [Nat.zero_add] at h
    simp only [digit, Nat.mul_zero, Nat.zero_add, h]
    omega
  have hsecond : digit 4 (x :: l) 1 = x.toNat % 16 := by
    have h := value_head x l (s := 4) (b := 4) (by decide)
    simp only [digit, Nat.mul_one, h]
    omega
  have hshift (i : Nat) : digit 4 (x :: l) (i + 2) = digit 4 l i := by
    refine value_congr fun j _ => ?_
    rw [show 4 * (i + 2) + j = 8 + (4 * i + j) by omega, bitAt_cons_add]
  simp only [digits, hlen, List.range_succ_eq_map, List.map_cons, List.map_map, Function.comp_def,
    hfirst, hsecond, hshift]

theorem ofBytes_eq_digits (bytes : List UInt8) :
    Hex.ofBytes bytes = (digits 4 bytes).map Hex.digit := by
  induction bytes with
  | nil => rfl
  | cons x l ih =>
    rw [digits_four_cons, List.map_cons, List.map_cons, ← ih]
    rfl

theorem ofBytes_getElem? (bytes : List UInt8) (h : i < 2 * bytes.length) :
    (Hex.ofBytes bytes)[i]? = some (Hex.digit (digit 4 bytes i)) := by
  have hi : i < groups 4 bytes.length := by
    simp only [groups]
    omega
  rw [ofBytes_eq_digits, digits, List.map_map, List.getElem?_map, List.getElem?_range hi]
  rfl

theorem zeros_hex (h : n ≤ 8 * bytes.length) :
    Zeros bytes n ↔ (∀ i < n / 4, (Hex.ofBytes bytes)[i]? = some 0x30) ∧
      (n % 4 = 0 ∨ ∃ c, (Hex.ofBytes bytes)[n / 4]? = some c ∧ Hex.value c < 2 ^ (4 - n % 4)) := by
  have hgroups := zeros_groups bytes (n / 4) (Nat.le_of_lt (Nat.mod_lt n (by decide : 4 > 0)))
  have hdigit (i : Nat) : digit 4 bytes i < 16 := value_lt _ 4
  have hzero : ((List.range 16).all fun d => (Hex.digit d == 0x30) == (d == 0)) = true := by decide
  rw [Nat.div_add_mod] at hgroups
  rw [hgroups]
  refine and_congr (forall₂_congr fun i hi => ?_) ?_
  · have hd := List.all_eq_true.mp hzero _ (List.mem_range.mpr (hdigit i))
    rw [beq_iff_eq, Bool.eq_iff_iff, beq_iff_eq, beq_iff_eq] at hd
    rw [ofBytes_getElem? bytes (by omega), Option.some.injEq, hd]
  · constructor
    · intro hpart
      by_cases hrem : n % 4 = 0
      · exact .inl hrem
      · refine .inr ⟨_, ofBytes_getElem? bytes (by omega), ?_⟩
        rw [Hex.value_digit (hdigit _)]
        exact (Nat.div_eq_zero_iff_lt (Nat.two_pow_pos _)).mp hpart
    · rintro (hrem | ⟨c, hc, hlt⟩)
      · rw [hrem]
        exact Nat.div_eq_of_lt (hdigit _)
      · have hpos : n / 4 < 2 * bytes.length := by
          have := List.getElem?_eq_some_iff.mp hc
          obtain ⟨hlen, -⟩ := this
          rwa [Hex.length_ofBytes] at hlen
        rw [ofBytes_getElem? bytes hpos, Option.some.injEq] at hc
        rw [← hc, Hex.value_digit (hdigit _)] at hlt
        exact Nat.div_eq_of_lt hlt

end Base.LeadingZeros
