import Grantd.Base.Rfc4648
import Mathlib.Algebra.Group.Nat.Defs

/-!
# Base32 one byte at a time

An encoder that keeps the bits it has not written yet in an accumulator, and
drains them five at a time after every byte.
-/

namespace Base.Rfc4648

/-- The digits, with `bits` bits pending in `acc`. After a byte there are
enough for one digit or for two. -/
def quintets (acc bits : Nat) : List UInt8 → List Nat
  | [] => if 0 < bits then [acc * 2 ^ (5 - bits) % 32] else []
  | b :: rest =>
    let v := acc * 256 + b.toNat
    if bits < 2 then v / 2 ^ (bits + 3) % 32 :: quintets (v % 2 ^ (bits + 3)) (bits + 3) rest
    else v / 2 ^ (bits + 3) % 32 :: v / 2 ^ (bits - 2) % 32 ::
      quintets (v % 2 ^ (bits - 2)) (bits - 2) rest

theorem value_zero (h : ∀ j < k, f j = false) : value f k = 0 := by
  induction k with
  | zero => rfl
  | succ k ih => simp [value, ih fun j hj => h j (by omega), h k (by omega)]

theorem value_div_mod (g : Nat → Bool) (a b : Nat) :
    value g (a + b) / 2 ^ b = value g a ∧ value g (a + b) % 2 ^ b =
      value (fun j => g (a + j)) b := by
  have hlt := value_lt (fun j => g (a + j)) b
  have hpos : 0 < 2 ^ b := Nat.two_pow_pos b
  rw [value_add]
  constructor
  · rw [Nat.mul_comm, Nat.mul_add_div hpos, Nat.div_eq_of_lt hlt, Nat.add_zero]
  · rw [Nat.mul_comm, Nat.mul_add_mod, Nat.mod_eq_of_lt hlt]

theorem value_mod (g : Nat → Bool) (k : Nat) : value g k % 2 ^ k = value g k :=
  Nat.mod_eq_of_lt (value_lt g k)

theorem map_range_succ (f : Nat → α) (n : Nat) :
    (List.range (n + 1)).map f = f 0 :: (List.range n).map fun i => f (i + 1) := by
  rw [List.range_succ_eq_map, List.map_cons, List.map_map]
  rfl

theorem quintets_eq (rest : List UInt8) (g : Nat → Bool) (bits : Nat) (hbits : bits < 5)
    (hg : ∀ m, g (bits + m) = bitAt rest m) :
    quintets (value g bits) bits rest =
      (List.range ((bits + 8 * rest.length + 4) / 5)).map fun i =>
        value (fun j => g (5 * i + j)) 5 := by
  induction rest generalizing g bits with
  | nil =>
    rw [quintets]
    split
    · rename_i hpos
      have hcount : (bits + 8 * ([] : List UInt8).length + 4) / 5 = 1 := by
        simp only [List.length_nil]
        omega
      have hzero : value (fun j => g (bits + j)) (5 - bits) = 0 :=
        value_zero fun j _ => by simp [hg, bitAt]
      have hsplit := value_add g bits (5 - bits)
      rw [hzero, Nat.add_zero, show bits + (5 - bits) = 5 by omega] at hsplit
      have hlt : value g 5 % 32 = value g 5 := value_mod g 5
      rw [hcount, ← hsplit, hlt]
      simp [List.range_one]
    · have hcount : (bits + 8 * ([] : List UInt8).length + 4) / 5 = 0 := by
        simp only [List.length_nil]
        omega
      rw [hcount]
      rfl
  | cons b rest ih =>
    have hbyte : value (fun j => g (bits + j)) 8 = b.toNat := by
      have hhead := value_head b rest (s := 0) (b := 8) (by decide)
      have hlt := b.toNat_lt
      rw [show 8 - 0 - 8 = 0 from rfl, Nat.pow_zero, Nat.div_one, Nat.mod_eq_of_lt hlt] at hhead
      rw [← hhead]
      exact value_congr fun j _ => by rw [hg, Nat.zero_add]
    have hv : value g bits * 256 + b.toNat = value g (5 + (bits + 3)) := by
      rw [show 5 + (bits + 3) = bits + 8 by omega, value_add, hbyte]
      rfl
    have htop := (value_div_mod g 5 (bits + 3)).1
    have htop32 : value g 5 % 32 = value g 5 := value_mod g 5
    have hshift : ∀ d m, 5 * d ≤ bits + 8 → g (5 * d + (bits + 8 - 5 * d + m)) = bitAt rest m := by
      intro d m hd
      rw [show 5 * d + (bits + 8 - 5 * d + m) = bits + (8 + m) by omega, hg, bitAt_cons_add]
    rw [quintets]
    simp only [hv, htop, htop32]
    have hzero : (fun j => g (5 * 0 + j)) = g := funext fun j => by rw [Nat.mul_zero, Nat.zero_add]
    split
    · rename_i hlow
      have hcount : (bits + 8 * (b :: rest).length + 4) / 5 =
          (bits + 3 + 8 * rest.length + 4) / 5 + 1 := by
        simp only [List.length_cons]
        omega
      rw [hcount, map_range_succ, hzero, (value_div_mod g 5 (bits + 3)).2,
        ih (fun j => g (5 + j)) (bits + 3) (by omega) fun m => by
          have h := hshift 1 m (by omega)
          rwa [show bits + 8 - 5 * 1 + m = bits + 3 + m by omega] at h]
      congr 2
      funext i
      exact value_congr fun j _ => by rw [show 5 + (5 * i + j) = 5 * (i + 1) + j by omega]
    · rename_i hhigh
      have hcount : (bits + 8 * (b :: rest).length + 4) / 5 =
          (bits - 2 + 8 * rest.length + 4) / 5 + 1 + 1 := by
        simp only [List.length_cons]
        omega
      have hten : 5 + (bits + 3) = 10 + (bits - 2) := by omega
      have hsecond : value g 10 % 32 = value (fun j => g (5 + j)) 5 := (value_div_mod g 5 5).2
      rw [hcount, map_range_succ, map_range_succ, hzero, hten, (value_div_mod g 10 (bits - 2)).1,
        (value_div_mod g 10 (bits - 2)).2, hsecond,
        ih (fun j => g (10 + j)) (bits - 2) (by omega) fun m => by
          have h := hshift 2 m (by omega)
          rwa [show bits + 8 - 5 * 2 + m = bits - 2 + m by omega] at h]
      congr 3
      funext i
      exact value_congr fun j _ => by rw [show 10 + (5 * i + j) = 5 * (i + 1 + 1) + j by omega]

theorem quintets_digits (bytes : List UInt8) : quintets 0 0 bytes = digits 5 bytes := by
  have h := quintets_eq bytes (bitAt bytes) 0 (by decide) fun m => by rw [Nat.zero_add]
  rw [show (0 + 8 * bytes.length + 4) / 5 = groups 5 bytes.length by simp only [groups]; omega] at h
  exact h

end Base.Rfc4648
