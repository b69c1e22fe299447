import Mathlib.Algebra.Group.Nat.Defs

/-!
# Uniquely decodable codes

A code maps values to lists of symbols. It is uniquely decodable on a domain
when an encoding can be read back with anything behind it: the value and the
rest are both determined. Such codes compose: in sequence, behind a length,
and repeated behind a count. Injectivity and prefix-freeness follow.
-/

namespace Base.Code

variable {α : Type u} {γ : Type v} {β : Type w}

/-- Two encodings followed by anything agree only if the values do, and then
what follows agrees too. -/
def UniquelyDecodable (dom : α → Prop) (enc : α → List β) : Prop :=
  ∀ ⦃a b r s⦄, dom a → dom b → enc a ++ r = enc b ++ s → a = b ∧ r = s

theorem UniquelyDecodable.injective {dom : α → Prop} {enc : α → List β}
    (h : UniquelyDecodable dom enc) (ha : dom a) (hb : dom b) (he : enc a = enc b) : a = b :=
  (h (r := []) (s := []) ha hb (by rw [he])).1

theorem UniquelyDecodable.of_length {dom : α → Prop} {enc : α → List β} {n : Nat}
    (hl : ∀ a, dom a → (enc a).length = n)
    (hi : ∀ a b, dom a → dom b → enc a = enc b → a = b) : UniquelyDecodable dom enc := by
  intro a b r s ha hb he
  obtain ⟨hab, hrs⟩ := List.append_inj he (by rw [hl a ha, hl b hb])
  exact ⟨hi a b ha hb hab, hrs⟩

theorem UniquelyDecodable.append {dom : α → Prop} {dom' : γ → Prop} {enc : α → List β}
    {enc' : γ → List β} (h : UniquelyDecodable dom enc) (h' : UniquelyDecodable dom' enc') :
    UniquelyDecodable (fun p : α × γ => dom p.1 ∧ dom' p.2) (fun p => enc p.1 ++ enc' p.2) := by
  rintro ⟨a, c⟩ ⟨b, d⟩ r s ⟨ha, hc⟩ ⟨hb, hd⟩ he
  simp only [List.append_assoc] at he
  obtain ⟨hab, hrest⟩ := h ha hb he
  obtain ⟨hcd, hrs⟩ := h' hc hd hrest
  exact ⟨by rw [Prod.mk.injEq]; exact ⟨hab, hcd⟩, hrs⟩

theorem UniquelyDecodable.sized {size : Nat → List β} {bound : Nat}
    (h : UniquelyDecodable (· < bound) size) :
    UniquelyDecodable (fun a : List β => a.length < bound) (fun a => size a.length ++ a) := by
  intro a b r s ha hb he
  simp only [List.append_assoc] at he
  obtain ⟨hlen, he⟩ := h ha hb he
  exact List.append_inj he hlen

/-- Words of one code in a row. Nothing marks the end, so the two lists have
to be of the same length. -/
theorem UniquelyDecodable.flatMap {dom : α → Prop} {enc : α → List β}
    (h : UniquelyDecodable dom enc) {as bs : List α} (hlen : as.length = bs.length)
    (ha : ∀ a ∈ as, dom a) (hb : ∀ b ∈ bs, dom b)
    (he : as.flatMap enc ++ r = bs.flatMap enc ++ s) : as = bs ∧ r = s := by
  induction as generalizing bs with
  | nil =>
    cases bs with
    | nil => exact ⟨rfl, by simpa using he⟩
    | cons _ _ => simp at hlen
  | cons a as ih =>
    cases bs with
    | nil => simp at hlen
    | cons b bs =>
      simp only [List.flatMap_cons, List.append_assoc] at he
      obtain ⟨hab, hrest⟩ := h (ha a (by simp)) (hb b (by simp)) he
      obtain ⟨hbs, hrs⟩ := ih (by simpa using hlen) (fun x hx => ha x (by simp [hx]))
        (fun x hx => hb x (by simp [hx])) hrest
      exact ⟨by rw [hab, hbs], hrs⟩

theorem UniquelyDecodable.counted {size : Nat → List β} {bound : Nat} {dom : α → Prop}
    {enc : α → List β} (hs : UniquelyDecodable (· < bound) size) (h : UniquelyDecodable dom enc) :
    UniquelyDecodable (fun as : List α => as.length < bound ∧ ∀ a ∈ as, dom a)
      (fun as => size as.length ++ as.flatMap enc) := by
  rintro as bs r s ⟨hla, ha⟩ ⟨hlb, hb⟩ he
  simp only [List.append_assoc] at he
  obtain ⟨hlen, he⟩ := hs hla hlb he
  exact h.flatMap hlen ha hb he

-- ---------------------------------------------------------------------------
-- Big-endian words
-- ---------------------------------------------------------------------------

/-- The low `n` bytes of a number, most significant first. -/
def bigEndian : Nat → Nat → List UInt8
  | 0, _ => []
  | n + 1, v => UInt8.ofNat (v / 256 ^ n) :: bigEndian n v

@[simp] theorem length_bigEndian : (bigEndian n v).length = n := by
  induction n with
  | zero => rfl
  | succ n ih => simp [bigEndian, ih]

theorem bigEndian_mod : bigEndian n (v % (256 ^ n * k)) = bigEndian n v := by
  induction n generalizing k with
  | zero => rfl
  | succ n ih =>
    have hm : 256 ^ (n + 1) * k = 256 ^ n * (256 * k) := by rw [Nat.pow_succ, Nat.mul_assoc]
    simp only [bigEndian, hm, ih, List.cons.injEq, and_true]
    rw [Nat.mod_mul_right_div_self, Nat.mul_comm 256 k]
    apply UInt8.toNat_inj.mp
    simp only [UInt8.toNat_ofNat']
    exact Nat.mod_mul_left_mod _ _ _

theorem bigEndian_inj (hv : v < 256 ^ n) (hw : w < 256 ^ n) (h : bigEndian n v = bigEndian n w) :
    v = w := by
  induction n generalizing v w with
  | zero => simp at hv hw; omega
  | succ n ih =>
    simp only [bigEndian, List.cons.injEq] at h
    obtain ⟨hhead, htail⟩ := h
    have hpos : 0 < 256 ^ n := Nat.pow_pos (by decide)
    have hsplit : 256 ^ (n + 1) = 256 ^ n * 256 := Nat.pow_succ ..
    have hv' : v / 256 ^ n < 256 := Nat.div_lt_of_lt_mul (by rwa [hsplit] at hv)
    have hw' : w / 256 ^ n < 256 := Nat.div_lt_of_lt_mul (by rwa [hsplit] at hw)
    have hdiv : v / 256 ^ n = w / 256 ^ n := by
      have := congrArg UInt8.toNat hhead
      simpa [UInt8.toNat_ofNat', Nat.mod_eq_of_lt hv', Nat.mod_eq_of_lt hw'] using this
    have hmod : v % 256 ^ n = w % 256 ^ n := by
      apply ih (Nat.mod_lt _ hpos) (Nat.mod_lt _ hpos)
      have hred (x : Nat) : bigEndian n (x % 256 ^ n) = bigEndian n x := by
        simpa using bigEndian_mod (n := n) (v := x) (k := 1)
      rw [hred, hred, htail]
    rw [← Nat.div_add_mod v (256 ^ n), ← Nat.div_add_mod w (256 ^ n), hdiv, hmod]

theorem uniquelyDecodable_bigEndian (n : Nat) :
    UniquelyDecodable (· < 256 ^ n) (bigEndian n) :=
  .of_length (fun _ _ => length_bigEndian) fun _ _ => bigEndian_inj

def ofBigEndian (b : List UInt8) : Nat := b.foldl (fun n x => n * 256 + x.toNat) 0

theorem foldl_bigEndian (n v acc : Nat) :
    (bigEndian n v).foldl (fun n x => n * 256 + x.toNat) acc = acc * 256 ^ n + v % 256 ^ n := by
  induction n generalizing acc with
  | zero => simp [bigEndian, Nat.mod_one]
  | succ n ih =>
    have hdigit : (UInt8.ofNat (v / 256 ^ n)).toNat = v / 256 ^ n % 256 := UInt8.toNat_ofNat'
    have hsplit : v % 256 ^ (n + 1) = 256 ^ n * (v / 256 ^ n % 256) + v % 256 ^ n := by
      rw [Nat.pow_succ, Nat.mod_mul, Nat.add_comm]
    rw [bigEndian, List.foldl_cons, ih, hdigit, hsplit, Nat.pow_succ, Nat.add_mul, Nat.mul_assoc,
      Nat.mul_comm 256, Nat.mul_comm (256 ^ n) (v / 256 ^ n % 256), Nat.add_assoc]

theorem ofBigEndian_bigEndian (h : v < 256 ^ n) : ofBigEndian (bigEndian n v) = v := by
  rw [ofBigEndian, foldl_bigEndian, Nat.zero_mul, Nat.zero_add, Nat.mod_eq_of_lt h]

-- ---------------------------------------------------------------------------
-- Bytes
-- ---------------------------------------------------------------------------

theorem forall_byte {p : UInt8 → Bool} (h : ((List.range 256).all fun n => p (.ofNat n)) = true)
    (c : UInt8) : p c = true := by
  have hc := List.all_eq_true.mp h c.toNat (List.mem_range.mpr c.toNat_lt)
  simpa using hc

end Base.Code
