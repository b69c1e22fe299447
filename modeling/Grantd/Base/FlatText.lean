import Grantd.Base.Decimal
import Grantd.Base.JsonText

/-!
# Compact texts of flat objects

The JSON text of an object whose values are strings and integers, written
without blanks and with no character that needs an escape, and a reader for
such texts.
-/

namespace Base.JsonText

abbrev Text := List UInt8

inductive Scalar
  | str (s : Text)
  | int (z : Int)
  deriving DecidableEq, Repr

abbrev Flat := List (Text × Scalar)

/-- Written as it stands, also by a writer that escapes for HTML. -/
def isPlain (c : UInt8) : Bool :=
  0x20 ≤ c && c < 0x7F && c != 0x22 && c != 0x26 && c != 0x3C && c != 0x3E && c != 0x5C

def Scalar.isPlain : Scalar → Bool
  | .str s => s.all JsonText.isPlain
  | .int _ => true

def Flat.isPlain (o : Flat) : Bool := o.all fun m => m.1.all JsonText.isPlain && m.2.isPlain

-- ---------------------------------------------------------------------------
-- Writing
-- ---------------------------------------------------------------------------

def quoted (s : Text) : Text := 0x22 :: s ++ [0x22]

def Scalar.text : Scalar → Text
  | .str s => quoted s
  | .int z => (if z < 0 then [0x2D] else []) ++ Decimal.text z.natAbs

def memberText (m : Text × Scalar) : Text := quoted m.1 ++ 0x3A :: m.2.text

def Flat.membersText (close : Text) : Flat → Text
  | [] => close
  | [m] => memberText m ++ close
  | m :: rest => memberText m ++ 0x2C :: Flat.membersText close rest

def Flat.text (o : Flat) : Text := 0x7B :: o.membersText [0x7D]

def Scalar.doc (f : Text → τ) : Scalar → Doc τ
  | .str s => .str (f s)
  | .int z => .num (.integer (z < 0) z.natAbs)

def Flat.members (f : Text → τ) (o : Flat) : Members τ := o.map fun m => (f m.1, m.2.doc f)

theorem lt_of_isPlain (h : isPlain c = true) : c < 0x80 := by
  simp only [isPlain, Bool.and_eq_true, decide_eq_true_eq] at h
  exact UInt8.lt_trans h.1.1.1.1.1.2 (by decide)

section
variable {P : UInt8 → Prop} (hpunct : P 0x22 ∧ P 0x3A ∧ P 0x2C ∧ P 0x2D)
  (hdigit : ∀ c, Decimal.isDigit c = true → P c)

include hpunct in
theorem forall_mem_quoted (hs : ∀ c ∈ s, P c) : ∀ c ∈ quoted s, P c := by
  intro c hc
  simp only [quoted, List.cons_append, List.mem_cons, List.mem_append, List.not_mem_nil,
    or_false] at hc
  rcases hc with rfl | hc | rfl
  · exact hpunct.1
  · exact hs c hc
  · exact hpunct.1

include hpunct hdigit in
theorem forall_mem_scalar {v : Scalar} (hv : ∀ s, v = .str s → ∀ c ∈ s, P c) :
    ∀ c ∈ v.text, P c := by
  intro c hc
  cases v with
  | str s => exact forall_mem_quoted hpunct (hv s rfl) c hc
  | int z =>
    rcases List.mem_append.mp hc with hc | hc
    · split at hc
      · rw [List.mem_singleton.mp hc]
        exact hpunct.2.2.2
      · exact absurd hc List.not_mem_nil
    · exact hdigit c (Decimal.isDigit_of_mem_text hc)

include hpunct hdigit in
/-- The characters of a text are those of its keys and strings, digits and
punctuation. -/
theorem Flat.forall_mem_membersText {o : Flat} (hclose : ∀ c ∈ close, P c)
    (hm : ∀ m ∈ o, (∀ c ∈ m.1, P c) ∧ ∀ s, m.2 = .str s → ∀ c ∈ s, P c) :
    ∀ c ∈ Flat.membersText close o, P c := by
  have hmember : ∀ m ∈ o, ∀ c ∈ memberText m, P c := by
    intro m hmo c hc
    simp only [memberText, List.mem_append, List.mem_cons] at hc
    rcases hc with hc | rfl | hc
    · exact forall_mem_quoted hpunct (hm m hmo).1 c hc
    · exact hpunct.2.1
    · exact forall_mem_scalar hpunct hdigit (hm m hmo).2 c hc
  clear hm
  fun_induction Flat.membersText close o with
  | case1 => exact hclose
  | case2 m =>
    intro c hc
    rcases List.mem_append.mp hc with hc | hc
    · exact hmember m List.mem_cons_self c hc
    · exact hclose c hc
  | case3 m rest _ ih =>
    intro c hc
    simp only [List.mem_append, List.mem_cons] at hc
    rcases hc with hc | rfl | hc
    · exact hmember m List.mem_cons_self c hc
    · exact hpunct.2.2.1
    · exact ih (fun m hm => hmember m (List.mem_cons_of_mem _ hm)) c hc

end

theorem Flat.isPlain_of_mem {o : Flat} (h : o.isPlain = true) : ∀ m ∈ o,
    (∀ c ∈ m.1, JsonText.isPlain c = true) ∧
      ∀ s, m.2 = .str s → ∀ c ∈ s, JsonText.isPlain c = true := by
  intro m hm
  have hplain := List.all_eq_true.mp h m hm
  simp only [Bool.and_eq_true] at hplain
  refine ⟨List.all_eq_true.mp hplain.1, fun s hs => ?_⟩
  rw [hs] at hplain
  exact List.all_eq_true.mp hplain.2

theorem Flat.lt_of_mem_text {o : Flat} (h : o.isPlain = true) : ∀ c ∈ o.text, c < 0x80 := by
  have hdigit (c : UInt8) (hc : Decimal.isDigit c = true) : c < 0x80 := by
    simp only [Decimal.isDigit, Bool.and_eq_true, decide_eq_true_eq] at hc
    exact UInt8.lt_of_le_of_lt hc.2 (by decide)
  have hmembers : ∀ c ∈ Flat.membersText [0x7D] o, c < 0x80 := by
    refine Flat.forall_mem_membersText ⟨by decide, by decide, by decide, by decide⟩ hdigit
      (List.forall_mem_singleton.mpr (by decide)) fun m hm => ?_
    obtain ⟨hname, hstr⟩ := Flat.isPlain_of_mem h m hm
    exact ⟨fun c hc => lt_of_isPlain (hname c hc), fun s hs c hc => lt_of_isPlain (hstr s hs c hc)⟩
  intro c hc
  rcases List.mem_cons.mp hc with rfl | hc
  · decide
  · exact hmembers c hc

-- ---------------------------------------------------------------------------
-- Reading
-- ---------------------------------------------------------------------------

def readQuoted : Text → Option (Text × Text)
  | [] => none
  | c :: rest =>
    if c = 0x22 then
      match rest.dropWhile (· ≠ 0x22) with
      | [] => none
      | _ :: after => some (rest.takeWhile (· ≠ 0x22), after)
    else none

def readInt : Text → Option (Int × Text)
  | [] => none
  | c :: rest =>
    if c = 0x2D then
      some (-Decimal.value (rest.takeWhile Decimal.isDigit), rest.dropWhile Decimal.isDigit)
    else if Decimal.isDigit c then
      some (Decimal.value (c :: rest.takeWhile Decimal.isDigit), rest.dropWhile Decimal.isDigit)
    else none

def readScalar (text : Text) : Option (Scalar × Text) :=
  match readQuoted text with
  | some (s, rest) => some (.str s, rest)
  | none => (readInt text).map fun p => (.int p.1, p.2)

/-- The members up to the closing brace, as many as `fuel` at most. -/
def readMembers : Nat → Text → Option Flat
  | 0, _ => none
  | fuel + 1, text =>
    match readQuoted text with
    | some (key, 0x3A :: rest) =>
      match readScalar rest with
      | some (v, [0x7D]) => some [(key, v)]
      | some (v, 0x2C :: rest) => (readMembers fuel rest).map ((key, v) :: ·)
      | _ => none
    | _ => none

def readFlat : Text → Option Flat
  | 0x7B :: rest => readMembers rest.length rest
  | _ => none

theorem readQuoted_quoted (hs : s.all isPlain = true) (rest : Text) :
    readQuoted (quoted s ++ rest) = some (s, rest) := by
  have hne : ∀ c ∈ s, decide (c ≠ 0x22) = true := by
    intro c hc
    have hplain := List.all_eq_true.mp hs c hc
    refine decide_eq_true fun h => ?_
    subst h
    exact absurd hplain (by decide)
  have hsplit : quoted s ++ rest = 0x22 :: (s ++ 0x22 :: rest) := by simp [quoted]
  rw [hsplit, readQuoted, if_pos rfl, List.dropWhile_append_of_pos hne,
    List.takeWhile_append_of_pos hne]
  simp

theorem readQuoted_text_int (z : Int) (rest : Text) :
    readQuoted (Scalar.text (.int z) ++ rest) = none := by
  rw [Scalar.text]
  split
  · rfl
  · cases hd : Decimal.text z.natAbs with
    | nil => exact absurd hd (Decimal.text_ne_nil _)
    | cons c cs =>
      have hc : Decimal.isDigit c = true :=
        Decimal.isDigit_of_mem_text (n := z.natAbs) (by rw [hd]; exact List.mem_cons_self)
      have hne : c ≠ 0x22 := by
        rintro rfl
        exact absurd hc (by decide)
      simp only [List.nil_append, List.cons_append, readQuoted, hne, if_false]

theorem readInt_text (z : Int) (hrest : ∀ c, rest.head? = some c → Decimal.isDigit c = false) :
    readInt (Scalar.text (.int z) ++ rest) = some (z, rest) := by
  have hdigits : ∀ c ∈ Decimal.text z.natAbs, Decimal.isDigit c = true :=
    fun c hc => Decimal.isDigit_of_mem_text hc
  have hstop : rest.takeWhile Decimal.isDigit = [] ∧ rest.dropWhile Decimal.isDigit = rest := by
    cases rest with
    | nil => exact ⟨rfl, rfl⟩
    | cons c cs => simp [hrest c rfl]
  rw [Scalar.text]
  split
  · rename_i hneg
    rw [List.singleton_append, List.cons_append, readInt, if_pos rfl,
      List.takeWhile_append_of_pos hdigits, List.dropWhile_append_of_pos hdigits, hstop.1, hstop.2,
      List.append_nil, Decimal.value_text]
    congr 2
    omega
  · rename_i hneg
    have hvalue := Decimal.value_text z.natAbs
    cases hd : Decimal.text z.natAbs with
    | nil => exact absurd hd (Decimal.text_ne_nil _)
    | cons c cs =>
      rw [hd] at hdigits hvalue
      have hc := hdigits c List.mem_cons_self
      have hne : c ≠ 0x2D := by
        rintro rfl
        exact absurd hc (by decide)
      have hcs : ∀ d ∈ cs, Decimal.isDigit d = true :=
        fun d hd => hdigits d (List.mem_cons_of_mem _ hd)
      simp only [List.nil_append, List.cons_append, readInt, hne, if_false, hc, if_true,
        List.takeWhile_append_of_pos hcs, List.dropWhile_append_of_pos hcs, hstop.1, hstop.2,
        List.append_nil, hvalue]
      congr 2
      omega

theorem readScalar_text (hv : v.isPlain = true)
    (hrest : ∀ c, rest.head? = some c → Decimal.isDigit c = false) :
    readScalar (v.text ++ rest) = some (v, rest) := by
  cases v with
  | str s => simp only [readScalar, Scalar.text, readQuoted_quoted hv]
  | int z => simp only [readScalar, readQuoted_text_int, readInt_text z hrest, Option.map_some]

theorem head?_brace (tail : Text) (c : UInt8) (h : (0x7D :: tail).head? = some c) :
    Decimal.isDigit c = false := by
  cases h
  rfl

theorem head?_comma (tail : Text) (c : UInt8) (h : (0x2C :: tail).head? = some c) :
    Decimal.isDigit c = false := by
  cases h
  rfl

theorem readMembers_text (hne : o ≠ []) (hplain : Flat.isPlain o = true) (hfuel : o.length ≤ fuel) :
    readMembers fuel (Flat.membersText [0x7D] o) = some o := by
  induction o generalizing fuel with
  | nil => exact absurd rfl hne
  | cons m rest ih =>
    obtain ⟨key, v⟩ := m
    simp only [Flat.isPlain, List.all_cons, Bool.and_eq_true] at hplain
    obtain ⟨⟨hkey, hv⟩, hrest⟩ := hplain
    cases fuel with
    | zero => exact absurd hfuel (by simp)
    | succ fuel =>
      cases rest with
      | nil =>
        simp only [Flat.membersText, memberText, List.append_assoc, List.cons_append, readMembers,
          readQuoted_quoted hkey, readScalar_text hv (head?_brace [])]
      | cons m' rest =>
        have hnext := ih (List.cons_ne_nil _ _) hrest (Nat.le_of_succ_le_succ hfuel)
        simp only [Flat.membersText, memberText, List.append_assoc, List.cons_append, readMembers,
          readQuoted_quoted hkey, readScalar_text hv (head?_comma _)]
        rw [hnext, Option.map_some]

theorem length_le_membersText (close : Text) (o : Flat) :
    o.length ≤ (Flat.membersText close o).length := by
  induction o with
  | nil => exact Nat.zero_le _
  | cons m rest ih =>
    cases rest with
    | nil => simp [Flat.membersText, memberText, quoted]
    | cons m' rest =>
      simp only [Flat.membersText, List.length_append, List.length_cons] at ih ⊢
      omega

theorem readFlat_text (hne : o ≠ []) (hplain : Flat.isPlain o = true) :
    readFlat (Flat.text o) = some o :=
  readMembers_text hne hplain (length_le_membersText _ o)

end Base.JsonText
