import Grantd.Base.FlatText

/-!
# Compact texts of nested objects

The JSON text of an object whose values are strings, integers and such objects
again, written as flat objects are, and a reader for such texts.
-/

namespace Base.JsonText

mutual
/-- An object has one member at least. -/
inductive Tree where
  | scalar (v : Scalar)
  | object (key : Text) (v : Tree) (rest : Branches)
inductive Branches where
  | nil
  | cons (key : Text) (v : Tree) (rest : Branches)
end

mutual
def Tree.isPlain : Tree → Bool
  | .scalar v => v.isPlain
  | .object key v rest => key.all JsonText.isPlain && v.isPlain && rest.isPlain
def Branches.isPlain : Branches → Bool
  | .nil => true
  | .cons key v rest => key.all JsonText.isPlain && v.isPlain && rest.isPlain
end

mutual
def Tree.doc (f : Text → τ) : Tree → Doc τ
  | .scalar v => v.doc f
  | .object key v rest => .obj ((f key, v.doc f) :: rest.members f)
def Branches.members (f : Text → τ) : Branches → Members τ
  | .nil => []
  | .cons key v rest => (f key, v.doc f) :: rest.members f
end

def Branches.ofFlat : Flat → Branches
  | [] => .nil
  | (key, v) :: rest => .cons key (.scalar v) (.ofFlat rest)

-- ---------------------------------------------------------------------------
-- Writing
-- ---------------------------------------------------------------------------

mutual
def Tree.text : Tree → Text
  | .scalar v => v.text
  | .object key v rest => 0x7B :: (quoted key ++ 0x3A :: (v.text ++ rest.text))
/-- The members after the first, and the closing brace. -/
def Branches.text : Branches → Text
  | .nil => [0x7D]
  | .cons key v rest => 0x2C :: (quoted key ++ 0x3A :: (v.text ++ rest.text))
end

-- ---------------------------------------------------------------------------
-- Reading
-- ---------------------------------------------------------------------------

mutual
/-- `fuel` bounds the nesting and the number of members. -/
def readTree : Nat → Text → Option (Tree × Text)
  | 0, _ => none
  | fuel + 1, text =>
    if text.head? = some 0x7B then
      match readQuoted text.tail with
      | some (key, 0x3A :: text) => do
        let (v, text) ← readTree fuel text
        let (rest, text) ← readBranches fuel text
        some (.object key v rest, text)
      | _ => none
    else (readScalar text).map fun p => (.scalar p.1, p.2)
def readBranches : Nat → Text → Option (Branches × Text)
  | 0, _ => none
  | fuel + 1, text =>
    if text.head? = some 0x7D then some (.nil, text.tail)
    else if text.head? = some 0x2C then
      match readQuoted text.tail with
      | some (key, 0x3A :: text) => do
        let (v, text) ← readTree fuel text
        let (rest, text) ← readBranches fuel text
        some (.cons key v rest, text)
      | _ => none
    else none
end

def readDocument (text : Text) : Option Tree :=
  match readTree text.length text with
  | some (v, []) => some v
  | _ => none

mutual
def Tree.size : Tree → Nat
  | .scalar _ => 1
  | .object _ v rest => v.size + rest.size + 1
def Branches.size : Branches → Nat
  | .nil => 1
  | .cons _ v rest => v.size + rest.size + 1
end

theorem Branches.head?_text (rest : Branches) (tail : Text) (c : UInt8)
    (h : (rest.text ++ tail).head? = some c) : Decimal.isDigit c = false := by
  cases rest with
  | nil =>
    cases h
    rfl
  | cons key v rest =>
    cases h
    rfl

theorem Scalar.head?_text (v : Scalar) (tail : Text) : (v.text ++ tail).head? ≠ some 0x7B := by
  cases v with
  | str s => simp [Scalar.text, quoted]
  | int z =>
    rw [Scalar.text]
    split
    · simp
    · cases hd : Decimal.text z.natAbs with
      | nil => exact absurd hd (Decimal.text_ne_nil _)
      | cons c cs =>
        have hc : Decimal.isDigit c = true :=
          Decimal.isDigit_of_mem_text (n := z.natAbs) (by rw [hd]; exact List.mem_cons_self)
        rintro h
        cases h
        exact absurd hc (by decide)

mutual
theorem readTree_text (v : Tree) (tail : Text) (hplain : v.isPlain = true)
    (htail : ∀ c, tail.head? = some c → Decimal.isDigit c = false) (hfuel : v.size ≤ fuel) :
    readTree fuel (v.text ++ tail) = some (v, tail) := by
  match v, fuel, hfuel with
  | .scalar v, fuel + 1, _ =>
    rw [Tree.text, readTree, if_neg (v.head?_text tail), readScalar_text hplain htail,
      Option.map_some]
  | .object key v rest, fuel + 1, hfuel =>
    simp only [Tree.isPlain, Bool.and_eq_true] at hplain
    obtain ⟨⟨hkey, hv⟩, hrest⟩ := hplain
    simp only [Tree.size] at hfuel
    have hsize : v.size ≤ fuel ∧ rest.size ≤ fuel := by omega
    have hvalue := readTree_text v (rest.text ++ tail) hv (rest.head?_text tail) hsize.1
    have hmembers := readBranches_text rest tail hrest hsize.2
    simp only [Tree.text, List.cons_append, List.append_assoc, readTree, List.head?_cons, if_true,
      List.tail_cons, readQuoted_quoted hkey, hvalue, hmembers, Option.bind_eq_bind,
      Option.bind_some]
theorem readBranches_text (rest : Branches) (tail : Text) (hplain : rest.isPlain = true)
    (hfuel : rest.size ≤ fuel) : readBranches fuel (rest.text ++ tail) = some (rest, tail) := by
  match rest, fuel, hfuel with
  | .nil, fuel + 1, _ => rfl
  | .cons key v rest, fuel + 1, hfuel =>
    simp only [Branches.isPlain, Bool.and_eq_true] at hplain
    obtain ⟨⟨hkey, hv⟩, hrest⟩ := hplain
    simp only [Branches.size] at hfuel
    have hsize : v.size ≤ fuel ∧ rest.size ≤ fuel := by omega
    have hvalue := readTree_text v (rest.text ++ tail) hv (rest.head?_text tail) hsize.1
    have hmembers := readBranches_text rest tail hrest hsize.2
    have hcomma : ¬ some (0x2C : UInt8) = some 0x7D := by decide
    simp only [Branches.text, List.cons_append, List.append_assoc, readBranches, List.head?_cons,
      if_neg hcomma, if_true, List.tail_cons, readQuoted_quoted hkey, hvalue, hmembers,
      Option.bind_eq_bind, Option.bind_some]
end

theorem length_scalar_pos (v : Scalar) : 0 < v.text.length := by
  cases v with
  | str s => simp [Scalar.text, quoted]
  | int z =>
    have hpos := List.length_pos_iff.mpr (Decimal.text_ne_nil z.natAbs)
    simp only [Scalar.text, List.length_append]
    omega

mutual
theorem Tree.size_le_text (v : Tree) : v.size ≤ v.text.length := by
  match v with
  | .scalar v => exact length_scalar_pos v
  | .object key v rest =>
    have hv := v.size_le_text
    have hrest := rest.size_le_text
    simp only [Tree.size, Tree.text, List.length_cons, List.length_append]
    omega
theorem Branches.size_le_text (rest : Branches) : rest.size ≤ rest.text.length := by
  match rest with
  | .nil => exact Nat.le_refl 1
  | .cons key v rest =>
    have hv := v.size_le_text
    have hrest := rest.size_le_text
    simp only [Branches.size, Branches.text, List.length_cons, List.length_append]
    omega
end

theorem readDocument_text {v : Tree} (h : v.isPlain = true) : readDocument v.text = some v := by
  have hread := readTree_text v [] h (fun _ hc => nomatch hc) v.size_le_text
  rw [List.append_nil] at hread
  rw [readDocument, hread]

end Base.JsonText
