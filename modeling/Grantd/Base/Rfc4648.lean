import Mathlib.Data.List.GetD
import Mathlib.Data.List.Nodup
import Mathlib.Algebra.Group.Nat.Defs

/-!
# Bit-group encodings

RFC 4648 in one definition: read the bytes as one bit string, most
significant bit first, pad it with zeros to a whole number of `k`-bit groups,
and spell each group with a letter. `k = 5` is base32, `k = 6` is base64.
-/

namespace Base.Rfc4648

/-- Bit `m` of a byte string; zero past its end. -/
def bitAt (bytes : List UInt8) (m : Nat) : Bool :=
  (bytes.getD (m / 8) 0).toNat.testBit (7 - m % 8)

/-- The number whose first `k` binary digits are `f 0`, `f 1`, and so on. -/
def value (f : Nat → Bool) : Nat → Nat
  | 0 => 0
  | k + 1 => 2 * value f k + (f k).toNat

def digit (k : Nat) (bytes : List UInt8) (i : Nat) : Nat :=
  value (fun j => bitAt bytes (k * i + j)) k

def groups (k n : Nat) : Nat := (8 * n + k - 1) / k

def encode (k : Nat) (alphabet : List UInt8) (bytes : List UInt8) : List UInt8 :=
  (List.range (groups k bytes.length)).map fun i => alphabet.getD (digit k bytes i) 0

theorem value_lt (f : Nat → Bool) (k : Nat) : value f k < 2 ^ k := by
  induction k with
  | zero => simp [value]
  | succ k ih =>
    have hb := (f k).toNat_le
    rw [value, Nat.pow_succ]
    omega

theorem value_inj (h : value f k = value g k) (hj : j < k) : f j = g j := by
  induction k with
  | zero => omega
  | succ k ih =>
    simp only [value] at h
    have hf := (f k).toNat_le
    have hg := (g k).toNat_le
    rcases Nat.lt_succ_iff_lt_or_eq.mp hj with hj | rfl
    · exact ih (by omega) hj
    · have hbit : (f j).toNat = (g j).toNat := by omega
      cases hf : f j <;> cases hg : g j <;> simp_all

@[simp] theorem length_encode : (encode k alphabet bytes).length = groups k bytes.length := by
  simp [encode]

theorem mem_encode (ha : alphabet.length = 2 ^ k) (hc : c ∈ encode k alphabet bytes) :
    c ∈ alphabet := by
  simp only [encode, List.mem_map] at hc
  obtain ⟨i, -, rfl⟩ := hc
  have hd : digit k bytes i < alphabet.length := ha ▸ value_lt ..
  rw [List.getD_eq_getElem _ _ hd]
  exact List.getElem_mem hd

theorem groups_lt (hk : 0 < k) (hk8 : k ≤ 8) (h : m < n) : groups k m < groups k n := by
  have hstep : 8 * m + k - 1 + k ≤ 8 * n + k - 1 := by omega
  calc (8 * m + k - 1) / k < (8 * m + k - 1) / k + 1 := Nat.lt_succ_self _
    _ = (8 * m + k - 1 + k) / k := (Nat.add_div_right _ hk).symm
    _ ≤ (8 * n + k - 1) / k := Nat.div_le_div_right hstep

theorem groups_inj (hk : 0 < k) (hk8 : k ≤ 8) (h : groups k m = groups k n) : m = n := by
  rcases Nat.lt_trichotomy m n with hlt | heq | hgt
  · exact absurd h (Nat.ne_of_lt (groups_lt hk hk8 hlt))
  · exact heq
  · exact absurd h.symm (Nat.ne_of_lt (groups_lt hk hk8 hgt))

theorem byte_ext {x y : UInt8} (h : ∀ i < 8, x.toNat.testBit (7 - i) = y.toNat.testBit (7 - i)) :
    x = y := by
  apply UInt8.toNat_inj.mp
  apply Nat.eq_of_testBit_eq
  intro i
  by_cases hi : i < 8
  · have := h (7 - i) (by omega)
    rwa [show 7 - (7 - i) = i by omega] at this
  · have hbig (z : UInt8) : z.toNat.testBit i = false :=
      Nat.testBit_lt_two_pow
        (Nat.lt_of_lt_of_le z.toNat_lt (Nat.pow_le_pow_right (by decide) (by omega)))
    rw [hbig, hbig]

theorem bytes_ext {xs ys : List UInt8} (hlen : xs.length = ys.length)
    (h : ∀ m < 8 * xs.length, bitAt xs m = bitAt ys m) : xs = ys := by
  apply List.ext_getElem hlen
  intro n hx hy
  apply byte_ext
  intro i hi
  have := h (8 * n + i) (by omega)
  simpa [bitAt, show (8 * n + i) / 8 = n by omega, show (8 * n + i) % 8 = i by omega,
    List.getElem?_eq_getElem hx, List.getElem?_eq_getElem hy] using this

theorem encode_inj (hk : 0 < k) (hk8 : k ≤ 8) (ha : alphabet.length = 2 ^ k)
    (hnd : alphabet.Nodup) (h : encode k alphabet xs = encode k alphabet ys) : xs = ys := by
  have hlen : xs.length = ys.length := by
    apply groups_inj hk hk8
    simpa using congrArg List.length h
  have hdigit (i : Nat) (hi : i < groups k xs.length) : digit k xs i = digit k ys i := by
    have hx : digit k xs i < alphabet.length := ha ▸ value_lt ..
    have hy : digit k ys i < alphabet.length := ha ▸ value_lt ..
    have hc : (encode k alphabet xs)[i]? = (encode k alphabet ys)[i]? := by rw [h]
    simp only [encode, List.getElem?_map, List.getElem?_range hi,
      List.getElem?_range (hlen ▸ hi : i < groups k ys.length), Option.map_some, Option.some.injEq,
      List.getD_eq_getElem _ _ hx, List.getD_eq_getElem _ _ hy] at hc
    exact (List.Nodup.getElem_inj_iff hnd).mp hc
  apply bytes_ext hlen
  intro m hm
  -- Bit `m` sits in group `m / k`.
  have hgroup : m / k < groups k xs.length := by
    rw [groups, Nat.div_lt_iff_lt_mul hk]
    have hdm := Nat.div_add_mod (8 * xs.length + k - 1) k
    have hmod := Nat.mod_lt (8 * xs.length + k - 1) hk
    rw [Nat.mul_comm]
    omega
  have hbit := value_inj (hdigit _ hgroup) (Nat.mod_lt m hk)
  simpa [Nat.div_add_mod] using hbit

-- ---------------------------------------------------------------------------
-- Reading base64 back
-- ---------------------------------------------------------------------------

def digits (k : Nat) (bytes : List UInt8) : List Nat :=
  (List.range (groups k bytes.length)).map (digit k bytes)

/-- The bytes of a list of 6-bit digits; bits that fill no byte are dropped. -/
def sextets : List Nat → List UInt8
  | a :: b :: c :: d :: rest =>
    UInt8.ofNat (a * 4 + b / 16) :: UInt8.ofNat (b % 16 * 16 + c / 4) ::
      UInt8.ofNat (c % 4 * 64 + d) :: sextets rest
  | [a, b, c] => [UInt8.ofNat (a * 4 + b / 16), UInt8.ofNat (b % 16 * 16 + c / 4)]
  | [a, b] => [UInt8.ofNat (a * 4 + b / 16)]
  | _ => []

theorem encode_eq_map : encode k alphabet bytes = (digits k bytes).map (alphabet.getD · 0) := by
  simp [encode, digits, Function.comp_def]

theorem value_congr (h : ∀ j < k, f j = g j) : value f k = value g k := by
  induction k with
  | zero => rfl
  | succ k ih => simp only [value, ih fun j hj => h j (by omega), h k (by omega)]

theorem value_add (f : Nat → Bool) (a b : Nat) :
    value f (a + b) = value f a * 2 ^ b + value (fun j => f (a + j)) b := by
  induction b with
  | zero => simp [value]
  | succ b ih =>
    rw [show a + (b + 1) = a + b + 1 from rfl, value, value, ih, Nat.pow_succ, ← Nat.mul_assoc]
    omega

theorem value_bits (n : Nat) (h : s + b ≤ 8) :
    value (fun j => n.testBit (7 - (s + j))) b = n / 2 ^ (8 - s - b) % 2 ^ b := by
  induction b with
  | zero => simp [value, Nat.mod_one]
  | succ b ih =>
    have hexp : 8 - s - b = 8 - s - (b + 1) + 1 := by omega
    rw [value, ih (by omega), hexp, Nat.pow_succ, ← Nat.div_div_eq_div_mul, Nat.pow_succ,
      Nat.mul_comm (2 ^ b) 2, Nat.mod_mul, show 7 - (s + b) = 8 - s - (b + 1) by omega,
      Nat.testBit_eq_decide_div_mod_eq]
    have hbit := Nat.mod_two_eq_zero_or_one (n / 2 ^ (8 - s - (b + 1)))
    rcases hbit with hbit | hbit
    · simp [hbit]
    · simp [hbit]
      omega

theorem bitAt_cons_lt (x : UInt8) (l : List UInt8) (h : m < 8) :
    bitAt (x :: l) m = x.toNat.testBit (7 - m) := by
  simp [bitAt, Nat.div_eq_of_lt h, Nat.mod_eq_of_lt h]

theorem bitAt_cons_add (x : UInt8) (l : List UInt8) : bitAt (x :: l) (8 + m) = bitAt l m := by
  simp [bitAt, show (8 + m) / 8 = m / 8 + 1 by omega, show (8 + m) % 8 = m % 8 by omega]

theorem value_head (x : UInt8) (l : List UInt8) (h : s + b ≤ 8) :
    value (fun j => bitAt (x :: l) (s + j)) b = x.toNat / 2 ^ (8 - s - b) % 2 ^ b := by
  rw [← value_bits x.toNat h]
  exact value_congr fun j hj => bitAt_cons_lt x l (by omega)

theorem value_tail (x : UInt8) (l : List UInt8) (b : Nat) :
    value (fun j => bitAt (x :: l) (8 + s + j)) b = value (fun j => bitAt l (s + j)) b :=
  value_congr fun j _ => by rw [Nat.add_assoc, bitAt_cons_add]

theorem digit_shift (x y z : UInt8) (l : List UInt8) (i : Nat) :
    digit 6 (x :: y :: z :: l) (i + 4) = digit 6 l i := by
  refine value_congr fun j _ => ?_
  rw [show 6 * (i + 4) + j = 8 + (8 + (8 + (6 * i + j))) by omega, bitAt_cons_add, bitAt_cons_add,
    bitAt_cons_add]

theorem digit_first (x : UInt8) (l : List UInt8) : digit 6 (x :: l) 0 = x.toNat / 4 := by
  have h := value_head x l (s := 0) (b := 6) (by decide)
  have hx := x.toNat_lt
  simp only [Nat.zero_add] at h
  simp only [digit, Nat.mul_zero, Nat.zero_add, h]
  omega

theorem digit_second (x y : UInt8) (l : List UInt8) :
    digit 6 (x :: y :: l) 1 = x.toNat % 4 * 16 + y.toNat / 16 := by
  have hx := value_head x (y :: l) (s := 6) (b := 2) (by decide)
  have hy := value_tail x (y :: l) 4 (s := 0)
  have hy' := value_head y l (s := 0) (b := 4) (by decide)
  have hlt := y.toNat_lt
  simp only [digit, value_add _ 2 4, Nat.mul_one, hx]
  simp only [← Nat.add_assoc] at hy ⊢
  simp only [show 6 + 2 = 8 + 0 from rfl, hy, hy']
  omega

theorem digit_third (x y z : UInt8) (l : List UInt8) :
    digit 6 (x :: y :: z :: l) 2 = y.toNat % 16 * 4 + z.toNat / 64 := by
  have hy := value_tail x (y :: z :: l) 4 (s := 4)
  have hy' := value_head y (z :: l) (s := 4) (b := 4) (by decide)
  have hz := value_tail x (y :: z :: l) 2 (s := 8)
  have hz' := value_tail y (z :: l) 2 (s := 0)
  have hz'' := value_head z l (s := 0) (b := 2) (by decide)
  have hlt := z.toNat_lt
  simp only [digit, value_add _ 4 2, show 6 * 2 = 8 + 4 from rfl, hy, hy']
  simp only [← Nat.add_assoc] at hz ⊢
  simp only [show 8 + 4 + 4 = 8 + 8 from rfl, hz]
  simp only [Nat.add_zero] at hz'
  simp only [hz', hz'']
  omega

theorem digit_fourth (x y z : UInt8) (l : List UInt8) :
    digit 6 (x :: y :: z :: l) 3 = z.toNat % 64 := by
  have hz := value_tail x (y :: z :: l) 6 (s := 10)
  have hz' := value_tail y (z :: l) 6 (s := 2)
  have hz'' := value_head z l (s := 2) (b := 6) (by decide)
  simp only [digit, show 6 * 3 = 8 + 10 from rfl, hz]
  simp only [show 10 = 8 + 2 from rfl, hz', hz'']
  omega

theorem digits_three (x y z : UInt8) (l : List UInt8) :
    digits 6 (x :: y :: z :: l) = x.toNat / 4 :: (x.toNat % 4 * 16 + y.toNat / 16) ::
      (y.toNat % 16 * 4 + z.toNat / 64) :: z.toNat % 64 :: digits 6 l := by
  have hlen : groups 6 (x :: y :: z :: l).length = groups 6 l.length + 4 := by
    simp only [groups, List.length_cons]
    omega
  simp only [digits, hlen, List.range_succ_eq_map, List.map_cons, List.map_map, Function.comp_def,
    digit_first, digit_second, digit_third, digit_fourth, digit_shift]

theorem digit_pad (k : Nat) (l : List UInt8) (i : Nat) : digit k (l ++ [0]) i = digit k l i := by
  refine value_congr fun j _ => ?_
  have hget (n : Nat) : (l ++ [0]).getD n 0 = l.getD n 0 := by
    rcases Nat.lt_or_ge n l.length with h | h
    · rw [List.getD_append _ _ _ _ h]
    · rw [List.getD_append_right _ _ _ _ h, List.getD_eq_default _ _ h]
      cases n - l.length <;> rfl
  simp only [bitAt, hget]

theorem digits_two (x y : UInt8) : digits 6 [x, y] =
    [x.toNat / 4, x.toNat % 4 * 16 + y.toNat / 16, y.toNat % 16 * 4] := by
  have hthird : digit 6 [x, y] 2 = y.toNat % 16 * 4 := by
    rw [← digit_pad]
    exact digit_third x y 0 []
  have hlen : groups 6 2 = 3 := by decide
  simp [digits, hlen, List.range_succ_eq_map, digit_first, digit_second, hthird]

theorem digits_one (x : UInt8) : digits 6 [x] = [x.toNat / 4, x.toNat % 4 * 16] := by
  have hsecond : digit 6 [x] 1 = x.toNat % 4 * 16 := by
    rw [← digit_pad]
    exact digit_second x 0 []
  have hlen : groups 6 1 = 2 := by decide
  simp [digits, hlen, List.range_succ_eq_map, digit_first, hsecond]

theorem sextets_digits : (bytes : List UInt8) → sextets (digits 6 bytes) = bytes
  | [] => rfl
  | [x] => by
    have hx : (x.toNat / 4 * 4 + x.toNat % 4 * 16 / 16) = x.toNat := by omega
    simp only [digits_one, sextets, hx, UInt8.ofNat_toNat]
  | [x, y] => by
    have hy := y.toNat_lt
    have hx' : x.toNat / 4 * 4 + (x.toNat % 4 * 16 + y.toNat / 16) / 16 = x.toNat := by omega
    have hy' : (x.toNat % 4 * 16 + y.toNat / 16) % 16 * 16 + y.toNat % 16 * 4 / 4 = y.toNat := by
      omega
    simp only [digits_two, sextets, hx', hy', UInt8.ofNat_toNat]
  | x :: y :: z :: l => by
    have hy := y.toNat_lt
    have hz := z.toNat_lt
    have hx' : x.toNat / 4 * 4 + (x.toNat % 4 * 16 + y.toNat / 16) / 16 = x.toNat := by omega
    have hy' : (x.toNat % 4 * 16 + y.toNat / 16) % 16 * 16 +
        (y.toNat % 16 * 4 + z.toNat / 64) / 4 = y.toNat := by omega
    have hz' : (y.toNat % 16 * 4 + z.toNat / 64) % 4 * 64 + z.toNat % 64 = z.toNat := by omega
    simp only [digits_three, sextets, hx', hy', hz', UInt8.ofNat_toNat, sextets_digits l]

theorem digit_lt (k : Nat) (bytes : List UInt8) : ∀ d ∈ digits k bytes, d < 2 ^ k := by
  intro d hd
  obtain ⟨i, -, rfl⟩ := List.mem_map.mp hd
  exact value_lt ..

theorem mapM_encode {look : UInt8 → Option Nat}
    (h : ∀ d < 2 ^ k, look (alphabet.getD d 0) = some d) :
    (encode k alphabet bytes).mapM look = some (digits k bytes) := by
  rw [encode_eq_map]
  have hlt := digit_lt k bytes
  generalize digits k bytes = ds at hlt
  induction ds with
  | nil => rfl
  | cons d ds ih =>
    simp only [List.map_cons, List.mapM_cons, h d (hlt d (.head _)),
      ih fun d hd => hlt d (.tail _ hd)]
    rfl

theorem digits_sextets : (ds : List Nat) → ds.length % 4 = 0 → (∀ d ∈ ds, d < 64) →
    digits 6 (sextets ds) = ds
  | [], _, _ => rfl
  | [_], h, _ => by simp at h
  | [_, _], h, _ => by simp at h
  | [_, _, _], h, _ => by simp at h
  | a :: b :: c :: d :: rest, h, hlt => by
    have hlen : rest.length % 4 = 0 := by
      simp only [List.length_cons] at h
      omega
    simp only [List.forall_mem_cons] at hlt
    obtain ⟨ha, hb, hc, hd, hrest⟩ := hlt
    have hx : (UInt8.ofNat (a * 4 + b / 16)).toNat = a * 4 + b / 16 :=
      UInt8.toNat_ofNat_of_lt' (by simp [UInt8.size]; omega)
    have hy : (UInt8.ofNat (b % 16 * 16 + c / 4)).toNat = b % 16 * 16 + c / 4 :=
      UInt8.toNat_ofNat_of_lt' (by simp [UInt8.size]; omega)
    have hz : (UInt8.ofNat (c % 4 * 64 + d)).toNat = c % 4 * 64 + d :=
      UInt8.toNat_ofNat_of_lt' (by simp [UInt8.size]; omega)
    rw [sextets, digits_three, hx, hy, hz, digits_sextets rest hlen hrest]
    refine List.cons_eq_cons.mpr ⟨by omega, List.cons_eq_cons.mpr ⟨by omega,
      List.cons_eq_cons.mpr ⟨by omega, List.cons_eq_cons.mpr ⟨by omega, rfl⟩⟩⟩⟩

theorem length_sextets : (ds : List Nat) → (sextets ds).length = ds.length * 6 / 8
  | [] | [_] | [_, _] | [_, _, _] => by simp [sextets]
  | _ :: _ :: _ :: _ :: rest => by
    simp only [sextets, List.length_cons, length_sextets rest]
    omega

theorem eq_map_of_mapM {α : Type u} {look : α → Option Nat} {letter : Nat → α}
    (h : ∀ c d, look c = some d → d < n ∧ letter d = c) {s : List α} (hs : s.mapM look = some ds) :
    (∀ d ∈ ds, d < n) ∧ s = ds.map letter := by
  induction s generalizing ds with
  | nil =>
    cases hs
    exact ⟨nofun, rfl⟩
  | cons c s ih =>
    simp only [List.mapM_cons, Option.bind_eq_bind, Option.bind_eq_some_iff, Option.pure_def,
      Option.some.injEq] at hs
    obtain ⟨d, hd, rest, hrest, rfl⟩ := hs
    obtain ⟨hlt, hletter⟩ := h c d hd
    obtain ⟨hall, htail⟩ := ih hrest
    exact ⟨List.forall_mem_cons.mpr ⟨hlt, hall⟩, by rw [List.map_cons, hletter, ← htail]⟩

end Base.Rfc4648
