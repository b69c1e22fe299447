import Grantd.Service.Js

/-!
# UTF-8 and UTF-16

Go holds text as UTF-8 bytes and JavaScript as UTF-16 code units. Both forms of
a text over Unicode scalar values pass the checks of their encoder, and
`TextEncoder` turns the one into the other. `encodeString` is modelled on code
points; `encodeString_eq` gives it back the decoder that the source runs.
-/

namespace Grantd.Service

open Base
open Canonical (within validString)

-- ---------------------------------------------------------------------------
-- Reading UTF-8
-- ---------------------------------------------------------------------------

/-- `new TextDecoder("utf-8", { fatal: true, ignoreBOM: true }).decode(bytes)`;
`none` is a thrown `TypeError`. -/
def textDecode : Bytes → Option JsString
  | [] => some []
  | b0 :: rest =>
    if b0 < 0x80 then (textDecode rest).map (utf16 b0.toNat ++ ·)
    else if within 0xC2 0xDF b0 then
      match rest with
      | b1 :: rest =>
        if within 0x80 0xBF b1 then
          (textDecode rest).map (utf16 (b0.toNat % 0x20 * 0x40 + b1.toNat % 0x40) ++ ·)
        else none
      | _ => none
    else if within 0xE0 0xEF b0 then
      match rest with
      | b1 :: b2 :: rest =>
        if within (if b0 = 0xE0 then 0xA0 else 0x80) (if b0 = 0xED then 0x9F else 0xBF) b1 &&
            within 0x80 0xBF b2 then
          (textDecode rest).map (utf16 (b0.toNat % 0x10 * 0x1000 + b1.toNat % 0x40 * 0x40 +
            b2.toNat % 0x40) ++ ·)
        else none
      | _ => none
    else if within 0xF0 0xF4 b0 then
      match rest with
      | b1 :: b2 :: b3 :: rest =>
        if within (if b0 = 0xF0 then 0x90 else 0x80) (if b0 = 0xF4 then 0x8F else 0xBF) b1 &&
            within 0x80 0xBF b2 && within 0x80 0xBF b3 then
          (textDecode rest).map (utf16 (b0.toNat % 0x8 * 0x40000 + b1.toNat % 0x40 * 0x1000 +
            b2.toNat % 0x40 * 0x40 + b3.toNat % 0x40) ++ ·)
        else none
      | _ => none
    else none

theorem within_iff {lo hi b : UInt8} :
    within lo hi b = true ↔ lo.toNat ≤ b.toNat ∧ b.toNat ≤ hi.toNat := by
  simp [within, UInt8.le_iff_toNat_le]

theorem not_lt_of_within (h : within lo hi b = true) (hlo : 0x80 ≤ lo.toNat) : ¬ b < 0x80 := by
  have := (within_iff.mp h).1
  rw [UInt8.lt_iff_toNat_lt]
  simp only [UInt8.reduceToNat]
  omega

theorem within_disjoint (h : within lo hi b = true) (hlt : hi'.toNat < lo.toNat) :
    within lo' hi' b = false := by
  rw [← Bool.not_eq_true, within_iff]
  have := (within_iff.mp h).1
  omega

-- The two readers of UTF-8, on one character of each length.

theorem read_one (h : b < 0x80) (rest : Bytes) :
    validString (b :: rest) = validString rest ∧
    textDecode (b :: rest) = (textDecode rest).map (utf16 b.toNat ++ ·) := by
  constructor
  · conv_lhs => unfold validString
    simp [h]
  · conv_lhs => unfold textDecode
    simp [h]

theorem read_two (h0 : within 0xC2 0xDF b0 = true) (h1 : within 0x80 0xBF b1 = true)
    (rest : Bytes) :
    validString (b0 :: b1 :: rest) = validString rest ∧
    textDecode (b0 :: b1 :: rest) =
      (textDecode rest).map (utf16 (b0.toNat % 0x20 * 0x40 + b1.toNat % 0x40) ++ ·) := by
  have hlead := not_lt_of_within h0 (by decide)
  constructor
  · conv_lhs => unfold validString
    simp [hlead, h0, h1]
  · conv_lhs => unfold textDecode
    simp [hlead, h0, h1]

theorem read_three (h0 : within 0xE0 0xEF b0 = true)
    (h1 : within (if b0 = 0xE0 then 0xA0 else 0x80) (if b0 = 0xED then 0x9F else 0xBF) b1 = true)
    (h2 : within 0x80 0xBF b2 = true) (rest : Bytes) :
    validString (b0 :: b1 :: b2 :: rest) = validString rest ∧
    textDecode (b0 :: b1 :: b2 :: rest) = (textDecode rest).map
      (utf16 (b0.toNat % 0x10 * 0x1000 + b1.toNat % 0x40 * 0x40 + b2.toNat % 0x40) ++ ·) := by
  have hlead := not_lt_of_within h0 (by decide)
  have hnot : within 0xC2 0xDF b0 = false := within_disjoint h0 (by decide)
  constructor
  · conv_lhs => unfold validString
    simp [hlead, hnot, h0, h1, h2]
  · conv_lhs => unfold textDecode
    simp [hlead, hnot, h0, h1, h2]

theorem read_four (h0 : within 0xF0 0xF4 b0 = true)
    (h1 : within (if b0 = 0xF0 then 0x90 else 0x80) (if b0 = 0xF4 then 0x8F else 0xBF) b1 = true)
    (h2 : within 0x80 0xBF b2 = true) (h3 : within 0x80 0xBF b3 = true) (rest : Bytes) :
    validString (b0 :: b1 :: b2 :: b3 :: rest) = validString rest ∧
    textDecode (b0 :: b1 :: b2 :: b3 :: rest) = (textDecode rest).map
      (utf16 (b0.toNat % 0x8 * 0x40000 + b1.toNat % 0x40 * 0x1000 + b2.toNat % 0x40 * 0x40 +
        b3.toNat % 0x40) ++ ·) := by
  have hlead := not_lt_of_within h0 (by decide)
  have hnot : within 0xC2 0xDF b0 = false := within_disjoint h0 (by decide)
  have hnot' : within 0xE0 0xEF b0 = false := within_disjoint h0 (by decide)
  constructor
  · conv_lhs => unfold validString
    simp [hlead, hnot, hnot', h0, h1, h2, h3]
  · conv_lhs => unfold textDecode
    simp [hlead, hnot, hnot', h0, h1, h2, h3]

theorem toNat_ofNat (h : n < 256) : (UInt8.ofNat n).toNat = n := UInt8.toNat_ofNat_of_lt' h

theorem within_ofNat {lo hi : UInt8} (h : n < 256) (hlo : lo.toNat ≤ n) (hhi : n ≤ hi.toNat) :
    within lo hi (UInt8.ofNat n) = true := by
  rw [within_iff, toNat_ofNat h]
  exact ⟨hlo, hhi⟩

theorem ofNat_eq_iff {b : UInt8} (h : n < 256) : UInt8.ofNat n = b ↔ n = b.toNat := by
  rw [← UInt8.toNat_inj, toNat_ofNat h]

theorem read_utf8 (hc : Nat.isValidChar c) (rest : Bytes) :
    validString (utf8 c ++ rest) = validString rest ∧
    textDecode (utf8 c ++ rest) = (textDecode rest).map (utf16 c ++ ·) := by
  have hmax : c < 0x110000 := by rcases hc with h | h <;> omega
  unfold utf8
  split
  · rename_i h
    have hb : UInt8.ofNat c < 0x80 := by
      rw [UInt8.lt_iff_toNat_lt, toNat_ofNat (by omega)]
      exact h
    simpa [toNat_ofNat (show c < 256 by omega)] using read_one hb rest
  · split
    · have h0 : 0xC0 + c / 0x40 < 256 := by omega
      have h1 : 0x80 + c % 0x40 < 256 := by omega
      have hval : (0xC0 + c / 0x40) % 0x20 * 0x40 + (0x80 + c % 0x40) % 0x40 = c := by omega
      have hread := read_two (within_ofNat h0 (by simp; omega) (by simp; omega))
        (within_ofNat h1 (by simp) (by simp; omega)) rest
      rwa [toNat_ofNat h0, toNat_ofNat h1, hval] at hread
    · split
      · have h0 : 0xE0 + c / 0x1000 < 256 := by omega
        have h1 : 0x80 + c / 0x40 % 0x40 < 256 := by omega
        have h2 : 0x80 + c % 0x40 < 256 := by omega
        have hval : (0xE0 + c / 0x1000) % 0x10 * 0x1000 + (0x80 + c / 0x40 % 0x40) % 0x40 * 0x40 +
            (0x80 + c % 0x40) % 0x40 = c := by omega
        have hw1 : within (if UInt8.ofNat (0xE0 + c / 0x1000) = 0xE0 then 0xA0 else 0x80)
            (if UInt8.ofNat (0xE0 + c / 0x1000) = 0xED then 0x9F else 0xBF)
            (UInt8.ofNat (0x80 + c / 0x40 % 0x40)) = true := by
          simp only [ofNat_eq_iff h0]
          refine within_ofNat h1 ?_ ?_
          · split
            · rename_i heq
              simp only [UInt8.reduceToNat] at heq ⊢
              omega
            · simp
          · split
            · rename_i heq
              simp only [UInt8.reduceToNat] at heq ⊢
              rcases hc with hc | hc <;> omega
            · simp only [UInt8.reduceToNat]
              omega
        have hread := read_three (within_ofNat h0 (by simp) (by simp; omega)) hw1
          (within_ofNat h2 (by simp) (by simp; omega)) rest
        rwa [toNat_ofNat h0, toNat_ofNat h1, toNat_ofNat h2, hval] at hread
      · have h0 : 0xF0 + c / 0x40000 < 256 := by omega
        have h1 : 0x80 + c / 0x1000 % 0x40 < 256 := by omega
        have h2 : 0x80 + c / 0x40 % 0x40 < 256 := by omega
        have h3 : 0x80 + c % 0x40 < 256 := by omega
        have hval : (0xF0 + c / 0x40000) % 0x8 * 0x40000 + (0x80 + c / 0x1000 % 0x40) %
          0x40 * 0x1000 +
            (0x80 + c / 0x40 % 0x40) % 0x40 * 0x40 + (0x80 + c % 0x40) % 0x40 = c := by omega
        have hw1 : within (if UInt8.ofNat (0xF0 + c / 0x40000) = 0xF0 then 0x90 else 0x80)
            (if UInt8.ofNat (0xF0 + c / 0x40000) = 0xF4 then 0x8F else 0xBF)
            (UInt8.ofNat (0x80 + c / 0x1000 % 0x40)) = true := by
          simp only [ofNat_eq_iff h0]
          refine within_ofNat h1 ?_ ?_
          · split
            · rename_i heq
              simp only [UInt8.reduceToNat] at heq ⊢
              omega
            · simp
          · split
            · rename_i heq
              simp only [UInt8.reduceToNat] at heq ⊢
              omega
            · simp only [UInt8.reduceToNat]
              omega
        have hread := read_four (within_ofNat h0 (by simp) (by simp; omega)) hw1
          (within_ofNat h2 (by simp) (by simp; omega))
            (within_ofNat h3 (by simp) (by simp; omega)) rest
        rwa [toNat_ofNat h0, toNat_ofNat h1, toNat_ofNat h2, toNat_ofNat h3, hval] at hread

-- ---------------------------------------------------------------------------
-- UTF-16
-- ---------------------------------------------------------------------------

theorem toNat_ofNat16 (h : n < 65536) : (UInt16.ofNat n).toNat = n := UInt16.toNat_ofNat_of_lt' h

theorem codePoints_cons (h : isHighSurrogate c = false) (hl : isLowSurrogate c = false)
    (rest : JsString) : codePoints (c :: rest) = c.toNat :: codePoints rest := by
  cases rest <;> simp [codePoints, h, hl]

theorem codePoints_utf16 (hc : Nat.isValidChar c) (rest : JsString) :
    codePoints (utf16 c ++ rest) = c :: codePoints rest := by
  have hmax : c < 0x110000 := by rcases hc with h | h <;> omega
  unfold utf16
  split
  · have hlt : c < 65536 := by omega
    rw [List.singleton_append, codePoints_cons, toNat_ofNat16 hlt]
    all_goals
      simp only [isHighSurrogate, isLowSurrogate, UInt16.le_iff_toNat_le, UInt16.lt_iff_toNat_lt,
        toNat_ofNat16 hlt, UInt16.reduceToNat, Bool.and_eq_false_iff, decide_eq_false_iff_not]
      rcases hc with hc | hc <;> omega
  · have hh : 0xD800 + (c - 0x10000) / 0x400 < 65536 := by omega
    have hl : 0xDC00 + (c - 0x10000) % 0x400 < 65536 := by omega
    have hhigh : isHighSurrogate (UInt16.ofNat (0xD800 + (c - 0x10000) / 0x400)) = true := by
      simp only [isHighSurrogate, UInt16.le_iff_toNat_le, UInt16.lt_iff_toNat_lt, toNat_ofNat16 hh,
        UInt16.reduceToNat, Bool.and_eq_true, decide_eq_true_eq]
      omega
    have hlow : isLowSurrogate (UInt16.ofNat (0xDC00 + (c - 0x10000) % 0x400)) = true := by
      simp only [isLowSurrogate, UInt16.le_iff_toNat_le, UInt16.lt_iff_toNat_lt, toNat_ofNat16 hl,
        UInt16.reduceToNat, Bool.and_eq_true, decide_eq_true_eq]
      omega
    have hval : 0x10000 + (0xD800 + (c - 0x10000) / 0x400 - 0xD800) * 0x400 +
        (0xDC00 + (c - 0x10000) % 0x400 - 0xDC00) = c := by omega
    simp only [List.cons_append, List.nil_append, codePoints, hhigh, hlow, Bool.and_self, if_true,
      toNat_ofNat16 hh, toNat_ofNat16 hl, hval]

theorem isValidChar_codePoints (s : JsString) : ∀ c ∈ codePoints s, Nat.isValidChar c := by
  have hunit (c : UInt16) :
      Nat.isValidChar (if isHighSurrogate c || isLowSurrogate c then 0xFFFD else c.toNat) := by
    have hlt := c.toNat_lt
    split
    · exact .inr (by omega)
    · rename_i h
      simp only [isHighSurrogate, isLowSurrogate, UInt16.le_iff_toNat_le, UInt16.lt_iff_toNat_lt,
        UInt16.reduceToNat, Bool.or_eq_true, Bool.and_eq_true, decide_eq_true_eq] at h
      unfold Nat.isValidChar
      omega
  induction s using codePoints.induct with
  | case1 => simp [codePoints]
  | case2 c => simpa [codePoints] using hunit c
  | case3 c d rest hpair ih =>
    simp only [codePoints, hpair, if_true, List.forall_mem_cons]
    simp only [isHighSurrogate, isLowSurrogate, UInt16.le_iff_toNat_le, UInt16.lt_iff_toNat_lt,
      UInt16.reduceToNat, Bool.and_eq_true, decide_eq_true_eq] at hpair
    exact ⟨.inr (by omega), ih⟩
  | case4 c d rest hpair ih =>
    rw [codePoints, if_neg hpair, List.forall_mem_cons]
    exact ⟨hunit c, ih⟩

theorem textDecode_textEncode (s : JsString) :
    textDecode (textEncode s) = some ((codePoints s).flatMap utf16) := by
  have hvalid := isValidChar_codePoints s
  rw [textEncode]
  generalize codePoints s = cs at hvalid
  induction cs with
  | nil => rfl
  | cons c cs ih =>
    rw [List.flatMap_cons, (read_utf8 (hvalid c (.head _)) _).2,
      ih fun d hd => hvalid d (.tail _ hd), List.flatMap_cons]
    rfl

theorem encodeString_eq (name s : JsString) : encodeString name s = (do
    ensure (!s.contains 0) ⟨js "canonical: field " ++ name ++ js " contains U+0000"⟩
    match textDecode (textEncode s) with
    | none => throw ⟨js "canonical: field " ++ name ++ js " is not valid UTF-8"⟩
    | some round =>
      ensure (round == s) ⟨js "canonical: field " ++ name ++ js " is not valid UTF-8"⟩
      pure (textEncode s)) := by
  rw [encodeString, textDecode_textEncode]

-- ---------------------------------------------------------------------------
-- One text, two strings
-- ---------------------------------------------------------------------------

/-- A text as Go holds it. -/
def goString (s : List Char) : GoString := s.flatMap fun c => utf8 c.toNat

def jsString (s : List Char) : JsString := s.flatMap fun c => utf16 c.toNat

theorem isValidChar_toNat (c : Char) : Nat.isValidChar c.toNat := c.valid

theorem validString_goString (s : List Char) : validString (goString s) = true := by
  induction s with
  | nil => rfl
  | cons c s ih =>
    rw [goString, List.flatMap_cons, (read_utf8 (isValidChar_toNat c) _).1]
    exact ih

theorem codePoints_jsString (s : List Char) : codePoints (jsString s) = s.map Char.toNat := by
  induction s with
  | nil => rfl
  | cons c s ih =>
    rw [jsString, List.flatMap_cons, codePoints_utf16 (isValidChar_toNat c), List.map_cons]
    exact congrArg _ ih

theorem textEncode_jsString (s : List Char) : textEncode (jsString s) = goString s := by
  rw [textEncode, codePoints_jsString, List.flatMap_map]
  rfl

theorem zero_mem_utf8 (hc : Nat.isValidChar c) : 0 ∈ utf8 c ↔ c = 0 := by
  have hmax : c < 0x110000 := by rcases hc with h | h <;> omega
  have hz (n : Nat) (h : n < 256) : 0 = UInt8.ofNat n ↔ n = 0 := by
    rw [eq_comm, ofNat_eq_iff h, UInt8.toNat_zero]
  unfold utf8
  split
  · rw [List.mem_singleton, hz c (by omega)]
  · split
    · simp only [List.mem_cons, List.not_mem_nil, or_false,
        hz _ (show 0xC0 + c / 0x40 < 256 by omega), hz _ (show 0x80 + c % 0x40 < 256 by omega)]
      omega
    · split
      · simp only [List.mem_cons, List.not_mem_nil, or_false,
          hz _ (show 0xE0 + c / 0x1000 < 256 by omega),
            hz _ (show 0x80 + c / 0x40 % 0x40 < 256 by omega),
          hz _ (show 0x80 + c % 0x40 < 256 by omega)]
        omega
      · simp only [List.mem_cons, List.not_mem_nil, or_false,
          hz _ (show 0xF0 + c / 0x40000 < 256 by omega),
            hz _ (show 0x80 + c / 0x1000 % 0x40 < 256 by omega),
          hz _ (show 0x80 + c / 0x40 % 0x40 < 256 by omega),
          hz _ (show 0x80 + c % 0x40 < 256 by omega)]
        omega

theorem zero_mem_utf16 (hc : Nat.isValidChar c) : 0 ∈ utf16 c ↔ c = 0 := by
  have hmax : c < 0x110000 := by rcases hc with h | h <;> omega
  have hz (n : Nat) (h : n < 65536) : 0 = UInt16.ofNat n ↔ n = 0 := by
    rw [eq_comm, ← UInt16.toNat_inj, toNat_ofNat16 h, UInt16.toNat_zero]
  unfold utf16
  split
  · rw [List.mem_singleton, hz c (by omega)]
  · simp only [List.mem_cons, List.not_mem_nil, or_false,
      hz _ (show 0xD800 + (c - 0x10000) / 0x400 < 65536 by omega),
      hz _ (show 0xDC00 + (c - 0x10000) % 0x400 < 65536 by omega)]
    omega

theorem zero_mem_text (s : List Char) :
    (0 ∈ goString s ↔ ∃ c ∈ s, c.toNat = 0) ∧ (0 ∈ jsString s ↔ ∃ c ∈ s, c.toNat = 0) := by
  constructor
  · simp only [goString, List.mem_flatMap, zero_mem_utf8 (isValidChar_toNat _)]
  · simp only [jsString, List.mem_flatMap, zero_mem_utf16 (isValidChar_toNat _)]

end Grantd.Service
