import Grantd.Base.Quintets
import Grantd.Service.Js

/-!
# Text and base64url in the service

The encoders of cloudflare/src/crypto/encoding.ts agree with the Go ones, and
what they write they read back.
-/

namespace Grantd.Service

open Base

-- ---------------------------------------------------------------------------
-- ASCII text
-- ---------------------------------------------------------------------------

theorem codePoints_ofBytes (b : Bytes) : codePoints (ofBytes b) = b.map UInt8.toNat := by
  have hlow (c : UInt8) : isHighSurrogate c.toUInt16 = false ∧
      isLowSurrogate c.toUInt16 = false := by
    have hc := c.toNat_lt
    constructor
    all_goals
      simp only [isHighSurrogate, isLowSurrogate, UInt16.le_iff_toNat_le, UInt8.toNat_toUInt16,
        Bool.and_eq_false_iff, decide_eq_false_iff_not]
      exact .inl (by simp; omega)
  induction b with
  | nil => rfl
  | cons c rest ih =>
    obtain ⟨hhigh, hlow⟩ := hlow c
    cases rest with
    | nil => simp [ofBytes, codePoints, hhigh, hlow]
    | cons d rest =>
      simp only [ofBytes, List.map_cons, codePoints, hhigh, hlow] at ih ⊢
      simpa using ih

theorem textEncode_ofBytes {b : Bytes} (h : ∀ c ∈ b, c < 0x80) : textEncode (ofBytes b) = b := by
  rw [textEncode, codePoints_ofBytes, List.flatMap_map]
  have hone (c : UInt8) (hc : c < 0x80) : utf8 c.toNat = [c] := by
    simp [utf8, show c.toNat < 128 from UInt8.lt_iff_toNat_lt.mp hc]
  induction b with
  | nil => rfl
  | cons c rest ih =>
    rw [List.flatMap_cons, hone c (h c (.head _)), ih fun d hd => h d (.tail _ hd)]
    rfl

theorem utf8_last (h : 0x80 ≤ c) : UInt8.ofNat (0x80 + c % 0x40) ∈ utf8 c := by
  unfold utf8
  rw [if_neg (by omega)]
  split
  · simp
  · split
    · simp
    · simp

theorem lt_of_utf8 (h : ∀ x ∈ utf8 c, x < 0x80) : c < 0x80 := by
  by_contra hc
  have hlast := h _ (utf8_last (by omega))
  rw [UInt8.lt_iff_toNat_lt, UInt8.toNat_ofNat_of_lt' (Nat.lt_of_le_of_lt (by omega :
    0x80 + c % 0x40 ≤ 0xBF) (by decide))] at hlast
  have h80 : (0x80 : UInt8).toNat = 0x80 := rfl
  omega

theorem utf8_unit {c : UInt16}
    (h : ∀ x ∈ utf8 (if isHighSurrogate c || isLowSurrogate c then 0xFFFD else c.toNat), x < 0x80) :
    ofBytes (utf8 (if isHighSurrogate c || isLowSurrogate c then 0xFFFD else c.toNat)) = [c] := by
  have hlt := lt_of_utf8 h
  split at hlt
  · omega
  · rename_i hc
    rw [if_neg hc, utf8, if_pos hlt]
    simp only [ofBytes, List.map_cons, List.map_nil, List.cons.injEq, and_true]
    rw [← UInt16.toNat_inj]
    simp only [UInt8.toNat_toUInt16]
    exact UInt8.toNat_ofNat_of_lt' (Nat.lt_trans hlt (by decide))

theorem ofBytes_textEncode (h : ∀ c ∈ textEncode s, c < 0x80) : ofBytes (textEncode s) = s := by
  unfold textEncode at h ⊢
  fun_induction codePoints s with
  | case1 => rfl
  | case2 c =>
    simp only [List.flatMap_cons, List.flatMap_nil, List.append_nil] at h ⊢
    exact utf8_unit h
  | case3 c d rest hsur ih =>
    simp only [List.flatMap_cons, List.mem_append] at h
    have hlt := lt_of_utf8 fun x hx => h x (.inl hx)
    omega
  | case4 c d rest hsur ih =>
    simp only [List.flatMap_cons, List.mem_append] at h ⊢
    rw [ofBytes, List.map_append, ← ofBytes, ← ofBytes, utf8_unit fun x hx => h x (.inl hx),
      ih fun x hx => h x (.inr hx)]
    rfl

theorem all_ofBytes {p : UInt8 → Bool} {q : UInt16 → Bool}
    (h : ((List.range 256).all fun n => p (.ofNat n) == q (UInt8.ofNat n).toUInt16) = true)
    (s : Bytes) : (ofBytes s).all q = s.all p := by
  have hc (c : UInt8) : q c.toUInt16 = p c :=
    (beq_iff_eq.mp (Code.forall_byte (p := fun c => p c == q c.toUInt16) h c)).symm
  simp only [ofBytes, List.all_map]
  exact congrArg (List.all s) (funext hc)

theorem toUInt16_inj {x y : UInt8} (h : x.toUInt16 = y.toUInt16) : x = y := by
  have hnat := congrArg UInt16.toNat h
  exact UInt8.toNat_inj.mp (by simpa using hnat)

theorem ofBytes_inj (h : ofBytes a = ofBytes b) : a = b :=
  (List.map_inj_right fun _ _ => toUInt16_inj).mp h

theorem exists_ofBytes {s : JsString} (h : ∀ c ∈ s, c < 0x100) : ∃ b, s = ofBytes b := by
  refine ⟨s.map UInt16.toUInt8, ?_⟩
  have hunit : ∀ c ∈ s, (UInt8.toUInt16 ∘ UInt16.toUInt8) c = c := by
    intro c hc
    rw [← UInt16.toNat_inj, Function.comp_apply, UInt8.toNat_toUInt16, UInt16.toNat_toUInt8]
    exact Nat.mod_eq_of_lt (UInt16.lt_iff_toNat_lt.mp (h c hc))
  rw [ofBytes, List.map_map, List.map_congr_left hunit, List.map_id']

theorem isPrefixOf_ofBytes (a b : Bytes) : (ofBytes a).isPrefixOf (ofBytes b) = a.isPrefixOf b := by
  rw [Bool.eq_iff_iff, List.isPrefixOf_iff_prefix, List.isPrefixOf_iff_prefix]
  exact List.prefix_map_iff_of_injective fun _ _ => toUInt16_inj

-- ---------------------------------------------------------------------------
-- Base64url
-- ---------------------------------------------------------------------------

theorem dropPadding_append {s : JsString} (h : ∀ c ∈ s, c ≠ 0x3D) (n : Nat) :
    dropPadding (s ++ List.replicate n 0x3D) = s := by
  have hs : s.reverse.dropWhile (· == 0x3D) = s.reverse := by
    cases hr : s.reverse with
    | nil => rfl
    | cons c rest =>
      have hc : c ≠ 0x3D := h c (List.mem_reverse.mp (hr ▸ .head _))
      simp [hc]
  have hpad : (List.replicate n (0x3D : UInt16)).dropWhile (· == 0x3D) = [] := by
    simp
  rw [dropPadding, List.reverse_append, List.reverse_replicate, List.dropWhile_append, hpad]
  simp [hs]

theorem b64uEncode_eq (b : Bytes) : b64uEncode b = ofBytes (Protocol.b64 b) := by
  have hswap : ((List.range 64).all fun d =>
      (fun c : UInt16 => if c = 0x2B then (0x2D : UInt16) else if c = 0x2F then 0x5F else c)
        (Protocol.b64Alphabet.getD d 0).toUInt16 ==
        (Protocol.b64URLAlphabet.getD d 0).toUInt16) = true := by decide
  have hplain : (Protocol.b64URLAlphabet.all fun c => c.toUInt16 != 0x3D) = true := by decide
  have hbody : (ofBytes (Protocol.rawStdEncoding b)).map (fun c : UInt16 =>
      if c = 0x2B then (0x2D : UInt16) else if c = 0x2F then 0x5F else c) =
      ofBytes (Protocol.b64 b) := by
    simp only [ofBytes, Protocol.rawStdEncoding, Protocol.b64, Rfc4648.encode_eq_map, List.map_map]
    refine List.map_congr_left fun d hd => ?_
    exact beq_iff_eq.mp (List.all_eq_true.mp hswap d
      (List.mem_range.mpr (Rfc4648.digit_lt 6 b d hd)))
  have hclean : ∀ c ∈ ofBytes (Protocol.b64 b), c ≠ 0x3D := by
    intro c hc
    obtain ⟨x, hx, rfl⟩ := List.mem_map.mp hc
    exact bne_iff_ne.mp (List.all_eq_true.mp hplain x (Rfc4648.mem_encode (by decide) hx))
  rw [b64uEncode, btoa, Protocol.stdEncoding, ofBytes, List.map_append, List.map_append,
    List.map_replicate, List.map_replicate]
  rw [show List.map UInt8.toUInt16 (Protocol.rawStdEncoding b) = ofBytes _ from rfl, hbody]
  exact dropPadding_append hclean _

theorem b64_ascii (b : Bytes) : ∀ c ∈ Protocol.b64 b, c < 0x80 := by
  have hall : (Protocol.b64URLAlphabet.all (· < 0x80)) = true := by decide
  intro c hc
  exact of_decide_eq_true (List.all_eq_true.mp hall c (Rfc4648.mem_encode (by decide) hc))

theorem b64uDecode_eq_some (h : b64uDecode s = some b) : s = b64uEncode b := by
  unfold b64uDecode at h
  split at h
  · cases h
  · split at h
    · cases h
    · dsimp only at h
      split at h
      · cases h
      · split at h
        · cases h
        · rename_i hne
          cases h
          simpa using (Eq.symm (by simpa using hne))

/-- The decoder takes up to two characters of padding off a text of full
length. -/
theorem atob_padded {s : JsString} (hpad : ∀ c ∈ s, c ≠ 0x3D)
    (hspace : ∀ c ∈ s, isAsciiWhitespace c = false) (hlen : s.length % 4 ≠ 1) :
    atob (s ++ List.replicate ((4 - s.length % 4) % 4) 0x3D) =
      (s.mapM b64Digit).map Rfc4648.sextets := by
  have hfilter : (s ++ List.replicate ((4 - s.length % 4) % 4) 0x3D).filter
      (!isAsciiWhitespace ·) = s ++ List.replicate ((4 - s.length % 4) % 4) 0x3D := by
    refine List.filter_eq_self.mpr fun c hc => ?_
    rcases List.mem_append.mp hc with hc | hc
    · simp [hspace c hc]
    · rw [List.eq_of_mem_replicate hc]
      rfl
  have hend (x : JsString) (h : x ++ [0x3D] = s) : False :=
    hpad 0x3D (h ▸ List.mem_append_right x (.head _)) rfl
  have htwo : ([0x3D, 0x3D].isSuffixOf s) = false := by
    rw [← Bool.not_eq_true, List.isSuffixOf_iff_suffix]
    rintro ⟨t, ht⟩
    exact hend (t ++ [0x3D]) (by simpa using ht)
  have hone : ([0x3D].isSuffixOf s) = false := by
    rw [← Bool.not_eq_true, List.isSuffixOf_iff_suffix]
    rintro ⟨t, ht⟩
    exact hend t ht
  have hshort : ([0x3D, 0x3D].isSuffixOf (s ++ [0x3D])) = false := by
    rw [← Bool.not_eq_true, List.isSuffixOf_iff_suffix]
    rintro ⟨t, ht⟩
    have ht' : (t ++ [0x3D]) ++ [0x3D] = s ++ [0x3D] := by simpa using ht
    exact hend t (List.append_cancel_right ht')
  have hcases : s.length % 4 = 0 ∨ s.length % 4 = 2 ∨ s.length % 4 = 3 := by omega
  unfold atob
  simp only [hfilter]
  rcases hcases with h | h | h
  · simp [h, htwo, hone]
  · have hlen2 : (s.length + 2) % 4 = 0 := by omega
    have hsuffix : [0x3D, 0x3D].isSuffixOf (s ++ [0x3D, 0x3D]) = true := by simp
    simp [h, hlen2, hsuffix, List.replicate_succ]
  · have hlen1 : (s.length + 1) % 4 = 0 := by omega
    simp [h, hlen1, hshort, List.replicate_succ]

theorem atob_btoa (b : Bytes) : atob (btoa b) = some b := by
  have halphabet : (Protocol.b64Alphabet.all fun c =>
      c.toUInt16 != 0x3D && !isAsciiWhitespace c.toUInt16) = true := by decide
  have hchars : ∀ c ∈ ofBytes (Protocol.rawStdEncoding b),
      c ≠ 0x3D ∧ isAsciiWhitespace c = false := by
    intro c hc
    obtain ⟨x, hx, rfl⟩ := List.mem_map.mp hc
    simpa using List.all_eq_true.mp halphabet x (Rfc4648.mem_encode (by decide) hx)
  have hlen : (ofBytes (Protocol.rawStdEncoding b)).length % 4 ≠ 1 := by
    simp only [ofBytes, List.length_map, Protocol.rawStdEncoding, Rfc4648.length_encode,
      Rfc4648.groups]
    omega
  have hdigit : ((List.range 64).all fun d =>
      b64Digit (Protocol.b64Alphabet.getD d 0).toUInt16 == some d) = true := by decide
  have hread : (ofBytes (Protocol.rawStdEncoding b)).mapM b64Digit = some (Rfc4648.digits 6 b) := by
    rw [ofBytes, List.mapM_map]
    exact Rfc4648.mapM_encode fun d hd =>
      beq_iff_eq.mp (List.all_eq_true.mp hdigit d (List.mem_range.mpr hd))
  have h := atob_padded (fun c hc => (hchars c hc).1) (fun c hc => (hchars c hc).2) hlen
  rw [hread, Option.map_some, Rfc4648.sextets_digits] at h
  rw [← h]
  simp [btoa, Protocol.stdEncoding, ofBytes]

theorem b64uDecode_b64uEncode (hb : b ≠ []) : b64uDecode (b64uEncode b) = some b := by
  have hback : ((List.range 64).all fun d =>
      (fun c : UInt16 => if c = 0x2D then (0x2B : UInt16) else if c = 0x5F then 0x2F else c)
        (Protocol.b64URLAlphabet.getD d 0).toUInt16 ==
        (Protocol.b64Alphabet.getD d 0).toUInt16) = true := by decide
  have halphabet : (Protocol.b64URLAlphabet.all fun c => isB64uChar c.toUInt16) = true := by decide
  have hchars : (b64uEncode b).all isB64uChar = true := by
    rw [b64uEncode_eq, ofBytes, List.all_map, List.all_eq_true]
    exact fun c hc => List.all_eq_true.mp halphabet c (Rfc4648.mem_encode (by decide) hc)
  have hlen : (b64uEncode b).length = (Protocol.rawStdEncoding b).length := by
    simp [b64uEncode_eq, ofBytes, Protocol.b64, Protocol.rawStdEncoding]
  have hne : b64uEncode b ≠ [] := by
    have hpos : 0 < b.length := List.length_pos_iff.mpr hb
    rw [← List.length_pos_iff, hlen, Protocol.rawStdEncoding, Rfc4648.length_encode, Rfc4648.groups]
    omega
  have hpadded : (b64uEncode b).map (fun c : UInt16 =>
      if c = 0x2D then (0x2B : UInt16) else if c = 0x5F then 0x2F else c) ++
      List.replicate ((4 - (b64uEncode b).length % 4) % 4) 0x3D = btoa b := by
    rw [hlen, btoa, Protocol.stdEncoding, ofBytes, List.map_append, List.map_replicate]
    congr 1
    simp only [b64uEncode_eq, ofBytes, Protocol.rawStdEncoding, Protocol.b64, Rfc4648.encode_eq_map,
      List.map_map]
    refine List.map_congr_left fun d hd => ?_
    exact beq_iff_eq.mp (List.all_eq_true.mp hback d
      (List.mem_range.mpr (Rfc4648.digit_lt 6 b d hd)))
  simp only [b64uDecode, hne, hchars, hpadded, atob_btoa]
  simp

/-- A value has one text in the service, and the Go side reads it back and
writes it. -/
theorem b64u_one_spelling (s : JsString) (x : Bytes) :
    (b64uDecode s = some x ↔ x ≠ [] ∧ s = b64uEncode x) ∧
    (b64uDecode s = some x →
      Protocol.b64Decode (textEncode s) = some x ∧ Protocol.b64 x = textEncode s) := by
  refine ⟨⟨fun h => ⟨?_, b64uDecode_eq_some h⟩, ?_⟩, fun h => ?_⟩
  · rintro rfl
    -- The text of no bytes is empty, and the decoder refuses it.
    rw [b64uDecode_eq_some h] at h
    exact absurd h (by decide)
  · rintro ⟨hx, rfl⟩
    exact b64uDecode_b64uEncode hx
  · have htext : textEncode s = Protocol.b64 x := by
      rw [b64uDecode_eq_some h, b64uEncode_eq, textEncode_ofBytes (b64_ascii x)]
    rw [htext]
    exact ⟨Protocol.b64Decode_b64 x, rfl⟩

theorem b64u_one_spelling_sample :
    b64uDecode (js "-_8") = some [0xFB, 0xFF] ∧
      Protocol.b64Decode (textEncode (js "-_8")) = some [0xFB, 0xFF] := by
  have h : b64uDecode (js "-_8") = some [0xFB, 0xFF] := by decide +kernel
  exact ⟨h, ((b64u_one_spelling (js "-_8") [0xFB, 0xFF]).2 h).1⟩

-- ---------------------------------------------------------------------------
-- Base32
-- ---------------------------------------------------------------------------

theorem toNat_shift_or (v : UInt32) (b : UInt8) :
    (v <<< 8 ||| b.toUInt32).toNat = (v.toNat * 256 + b.toNat) % 2 ^ 32 := by
  have hb := b.toNat_lt
  have hv := v.toNat_lt
  have hshift : (v <<< 8).toNat = v.toNat % 2 ^ 24 * 2 ^ 8 := by
    rw [UInt32.toNat_shiftLeft, show (8 : UInt32).toNat % 32 = 8 from rfl, Nat.shiftLeft_eq]
    omega
  have hor : v.toNat % 2 ^ 24 * 2 ^ 8 ||| b.toNat = v.toNat % 2 ^ 24 * 2 ^ 8 + b.toNat := by
    rw [← Nat.shiftLeft_eq, Nat.shiftLeft_add_eq_or_of_lt (by simpa using hb)]
  rw [UInt32.toNat_or, hshift, UInt8.toNat_toUInt32, hor]
  omega

def b32Digit (d : Nat) : UInt16 := (ofBytes Protocol.b32Alphabet).getD d 0

theorem b32Char_shiftRight (v : UInt32) (h : k < 32) :
    b32Char (v >>> UInt32.ofNat k) = b32Digit (v.toNat / 2 ^ k % 32) := by
  have hk : (UInt32.ofNat k).toNat % 32 = k := by
    rw [UInt32.toNat_ofNat']
    omega
  rw [b32Char, b32Digit, UInt32.toNat_and, UInt32.toNat_shiftRight, hk, Nat.shiftRight_eq_div_pow,
    show (31 : UInt32).toNat = 2 ^ 5 - 1 from rfl, Nat.and_two_pow_sub_one_eq_mod]

theorem b32Char_shiftLeft (v : UInt32) (h : k < 32) :
    b32Char (v <<< UInt32.ofNat k) = b32Digit (v.toNat * 2 ^ k % 2 ^ 32 % 32) := by
  have hk : (UInt32.ofNat k).toNat % 32 = k := by
    rw [UInt32.toNat_ofNat']
    omega
  rw [b32Char, b32Digit, UInt32.toNat_and, UInt32.toNat_shiftLeft, hk, Nat.shiftLeft_eq,
    show (31 : UInt32).toNat = 2 ^ 5 - 1 from rfl, Nat.and_two_pow_sub_one_eq_mod]

/-- What a byte adds, when `bits` bits are pending. Two digits from two pending
bits on. -/
theorem base32Drain_eq (w : UInt32) (out : JsString) (h : bits < 5) :
    base32Drain w out (bits + 8) =
      if bits < 2 then (bits + 3, out ++ [b32Char (w >>> UInt32.ofNat (bits + 3))])
      else (bits - 2, out ++ [b32Char (w >>> UInt32.ofNat (bits + 3)),
        b32Char (w >>> UInt32.ofNat (bits - 2))]) := by
  rcases (by omega : bits = 0 ∨ bits = 1 ∨ bits = 2 ∨ bits = 3 ∨ bits = 4) with
    rfl | rfl | rfl | rfl | rfl
  all_goals simp [base32Drain]

theorem base32Loop_eq (bytes : Bytes) (out : JsString) (bits : Nat) (v : UInt32) (h : bits < 5) :
    base32Loop out bits v bytes =
      out ++ (Rfc4648.quintets (v.toNat % 2 ^ bits) bits bytes).map b32Digit := by
  induction bytes generalizing out bits v with
  | nil =>
    rw [base32Loop, Rfc4648.quintets]
    split
    · rename_i hpos
      rw [b32Char_shiftLeft v (by omega), List.map_singleton]
      rcases (by omega : bits = 1 ∨ bits = 2 ∨ bits = 3 ∨ bits = 4) with rfl | rfl | rfl | rfl
      all_goals
        congr 3
        omega
    · simp
  | cons b rest ih =>
    have hw := toNat_shift_or v b
    have hb := b.toNat_lt
    -- Only the bits that are pending come out of the accumulator.
    have hfirst : (v <<< 8 ||| b.toUInt32).toNat / 2 ^ (bits + 3) % 32 =
        (v.toNat % 2 ^ bits * 256 + b.toNat) / 2 ^ (bits + 3) % 32 := by
      rw [hw]
      rcases (by omega : bits = 0 ∨ bits = 1 ∨ bits = 2 ∨ bits = 3 ∨ bits = 4) with
        rfl | rfl | rfl | rfl | rfl
      all_goals omega
    rw [base32Loop, base32Drain_eq _ _ h, Rfc4648.quintets]
    split
    · rename_i hlow
      have hrest : (v <<< 8 ||| b.toUInt32).toNat % 2 ^ (bits + 3) =
          (v.toNat % 2 ^ bits * 256 + b.toNat) % 2 ^ (bits + 3) := by
        rw [hw]
        rcases (by omega : bits = 0 ∨ bits = 1) with rfl | rfl
        all_goals omega
      simp only
      rw [ih _ _ _ (by omega), b32Char_shiftRight _ (by omega), List.map_cons, List.append_assoc,
        List.singleton_append, hfirst, hrest]
    · rename_i hhigh
      have hsecond : (v <<< 8 ||| b.toUInt32).toNat / 2 ^ (bits - 2) % 32 =
          (v.toNat % 2 ^ bits * 256 + b.toNat) / 2 ^ (bits - 2) % 32 := by
        rw [hw]
        rcases (by omega : bits = 2 ∨ bits = 3 ∨ bits = 4) with rfl | rfl | rfl
        all_goals omega
      have hrest : (v <<< 8 ||| b.toUInt32).toNat % 2 ^ (bits - 2) =
          (v.toNat % 2 ^ bits * 256 + b.toNat) % 2 ^ (bits - 2) := by
        rw [hw]
        rcases (by omega : bits = 2 ∨ bits = 3 ∨ bits = 4) with rfl | rfl | rfl
        all_goals omega
      simp only
      rw [ih _ _ _ (by omega), b32Char_shiftRight _ (by omega), b32Char_shiftRight _ (by omega),
        List.map_cons, List.map_cons, List.append_assoc, List.cons_append, List.singleton_append,
        hfirst, hsecond, hrest]

theorem base32Encode_eq (b : Bytes) : base32Encode b = ofBytes (Protocol.b32 b) := by
  have h := base32Loop_eq b [] 0 0 (by decide)
  rw [show (0 : UInt32).toNat % 2 ^ 0 = 0 from rfl, Rfc4648.quintets_digits, List.nil_append] at h
  rw [base32Encode, h, Protocol.b32, Rfc4648.encode_eq_map, ofBytes, List.map_map]
  refine List.map_congr_left fun d hd => ?_
  simp only [b32Digit, ofBytes, Function.comp_def, List.getD_eq_getElem?_getD, List.getElem?_map]
  cases Protocol.b32Alphabet[d]? <;> rfl

end Grantd.Service
