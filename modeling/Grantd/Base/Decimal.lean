/-!
# Decimal numerals

Numerals of ASCII digits: the one a number is written as, and the number that
any run of digits stands for.
-/

namespace Base.Decimal

def isDigit (c : UInt8) : Bool := 0x30 ≤ c && c ≤ 0x39

def text (n : Nat) : List UInt8 := (Nat.toDigits 10 n).map fun c => UInt8.ofNat c.toNat

def intText : Int → List UInt8
  | .ofNat n => text n
  | .negSucc n => 0x2D :: text (n + 1)

def value (s : List UInt8) : Nat := s.foldl (fun n c => 10 * n + (c.toNat - 0x30)) 0

theorem toNat_of_isDigit {c : Char} (h : c.isDigit = true) : 0x30 ≤ c.toNat ∧ c.toNat ≤ 0x39 := by
  simp only [Char.isDigit, Bool.and_eq_true, decide_eq_true_eq] at h
  exact ⟨UInt32.le_iff_toNat_le.mp h.1, UInt32.le_iff_toNat_le.mp h.2⟩

theorem toNat_byte {c : Char} (h : c.isDigit = true) : (UInt8.ofNat c.toNat).toNat = c.toNat := by
  have hc := toNat_of_isDigit h
  exact UInt8.toNat_ofNat_of_lt' (Nat.lt_of_le_of_lt hc.2 (by decide))

theorem isDigit_of_mem_text (h : c ∈ text n) : isDigit c = true := by
  obtain ⟨d, hd, rfl⟩ := List.mem_map.mp h
  have hdigit := Nat.isDigit_of_mem_toDigits (by decide) (by decide) hd
  simp only [isDigit, Bool.and_eq_true, decide_eq_true_eq, UInt8.le_iff_toNat_le,
    toNat_byte hdigit]
  exact toNat_of_isDigit hdigit

theorem mem_intText (h : c ∈ intText i) : c = 0x2D ∨ isDigit c = true := by
  cases i with
  | ofNat n => exact .inr (isDigit_of_mem_text h)
  | negSucc n =>
    rcases List.mem_cons.mp h with rfl | hc
    · exact .inl rfl
    · exact .inr (isDigit_of_mem_text hc)

theorem foldl_digits (cs : List Char) (h : ∀ c ∈ cs, c.isDigit = true) (acc : Nat) :
    (cs.map fun c => UInt8.ofNat c.toNat).foldl (fun n c => 10 * n + (c.toNat - 0x30)) acc =
      Nat.ofDigitChars 10 cs acc := by
  induction cs generalizing acc with
  | nil => rfl
  | cons c cs ih =>
    rw [List.map_cons, List.foldl_cons, ih (fun d hd => h d (List.mem_cons_of_mem _ hd)),
      Nat.ofDigitChars_cons, toNat_byte (h c List.mem_cons_self)]
    rfl

theorem value_text (n : Nat) : value (text n) = n := by
  rw [value, text, foldl_digits _ fun c hc =>
    Nat.isDigit_of_mem_toDigits (by decide) (by decide) hc]
  exact Nat.ofDigitChars_toDigits (by decide) (by decide)

theorem text_ne_nil (n : Nat) : text n ≠ [] := by
  simp [text, Nat.toDigits_ne_nil]

theorem intText_ne_nil (i : Int) : intText i ≠ [] := by
  cases i with
  | ofNat n => exact text_ne_nil n
  | negSucc n => exact List.cons_ne_nil _ _

theorem head_text (h : n ≠ 0) : (text n).head? ≠ some 0x30 := by
  induction n using Nat.strongRecOn with
  | ind n ih =>
    by_cases hn : n < 10
    · have hdigit : ((List.range 10).all fun d =>
          d == 0 || UInt8.ofNat d.digitChar.toNat != 0x30) = true := by decide
      have hd := List.all_eq_true.mp hdigit n (List.mem_range.mpr hn)
      simp only [Bool.or_eq_true, beq_iff_eq, h, false_or, bne_iff_ne] at hd
      simpa [text, Nat.toDigits_of_lt_base hn] using hd
    · have hstep : text n = text (n / 10) ++ [UInt8.ofNat (n % 10).digitChar.toNat] := by
        rw [text, Nat.toDigits_of_base_le (n := n) (by decide) (by omega)]
        simp [text]
      have hhead := ih (n / 10) (by omega) (by omega)
      cases htext : text (n / 10) with
      | nil => exact absurd htext (text_ne_nil _)
      | cons c rest =>
        rw [hstep, htext]
        rw [htext] at hhead
        exact hhead

end Base.Decimal
