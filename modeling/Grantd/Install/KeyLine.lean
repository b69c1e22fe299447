import Grantd.Install.Enrolled

/-!
# One spelling per key

The Go parser of a key line decodes its body and compares it with what it
encodes to; the service checks the body's characters and then reads the bytes
at fixed offsets. Both take the same lines, one for each key.
-/

namespace Grantd.Install

open Base Protocol
open Service (JsString ofBytes js textEncode)

/-- What is asked of x/crypto: the wire form of an ssh-ed25519 key is read as
that key, and nothing else has that type. -/
structure ParsesEd25519 (parsePublicKey : Bytes → Option SSHPublicKey) : Prop where
  reads : ∀ raw, raw.length = 32 →
    parsePublicKey (ed25519Wire raw) = some ⟨keyAlgoED25519, ed25519Wire raw⟩
  only : ReadsEd25519 parsePublicKey

def LineOf (k : Bytes) (line : GoString) : Prop := k.length = 32 ∧ line = keyLine k

theorem ed25519Wire_inj (h : ed25519Wire a = ed25519Wire b) (ha : a.length = 32)
    (hb : b.length = 32) : a = b := by
  rw [ed25519Wire_eq ha, ed25519Wire_eq hb] at h
  exact List.append_cancel_left h

theorem LineOf.unique (h : LineOf k line) (h' : LineOf k' line) : k = k' := by
  obtain ⟨hk, rfl⟩ := h
  obtain ⟨hk', heq⟩ := h'
  exact ed25519Wire_inj (stdEncoding_inj (List.append_cancel_left heq)) hk hk'

theorem keyLine_ascii (raw : Bytes) : ∀ c ∈ keyLine raw, c < 0x80 :=
  fieldChar_ascii (keyLine_fieldChar raw)

-- ---------------------------------------------------------------------------
-- Go
-- ---------------------------------------------------------------------------

theorem decodeQuanta_rawStdEncoding : (b : Bytes) → b.length % 3 = 0 →
    decodeQuanta (rawStdEncoding b) = some b
  | [], _ => rfl
  | [_], h => by simp at h
  | [_, _], h => by simp at h
  | x :: y :: z :: rest, h => by
    have hrest := decodeQuanta_rawStdEncoding rest (by simp only [List.length_cons] at h; omega)
    have hread : ((List.range 64).all fun d => Protocol.b64Digit (b64Alphabet.getD d 0) == some d &&
        b64Alphabet.getD d 0 != 0x3D) = true := by decide +kernel
    have hdigit {d : Nat} (hd : d < 64) : Protocol.b64Digit (b64Alphabet.getD d 0) = some d ∧
        b64Alphabet.getD d 0 ≠ 0x3D := by
      simpa using List.all_eq_true.mp hread d (List.mem_range.mpr hd)
    have hx := x.toNat_lt
    have hy := y.toNat_lt
    have hz := z.toNat_lt
    obtain ⟨h1, -⟩ := hdigit (d := x.toNat / 4) (by omega)
    obtain ⟨h2, -⟩ := hdigit (d := x.toNat % 4 * 16 + y.toNat / 16) (by omega)
    obtain ⟨h3, hne3⟩ := hdigit (d := y.toNat % 16 * 4 + z.toNat / 64) (by omega)
    obtain ⟨h4, hne4⟩ := hdigit (d := z.toNat % 64) (by omega)
    have hb1 : x.toNat / 4 * 4 + (x.toNat % 4 * 16 + y.toNat / 16) / 16 = x.toNat := by omega
    have hb2 : (x.toNat % 4 * 16 + y.toNat / 16) % 16 * 16 +
        (y.toNat % 16 * 4 + z.toNat / 64) / 4 = y.toNat := by omega
    have hb3 : (y.toNat % 16 * 4 + z.toNat / 64) % 4 * 64 + z.toNat % 64 = z.toNat := by omega
    rw [rawStdEncoding, Rfc4648.encode_eq_map] at hrest
    simp only [rawStdEncoding, Rfc4648.encode_eq_map, Rfc4648.digits_three, List.map_cons,
      decodeQuanta, h1, h2, h3, h4, hne3, hne4, hrest, if_false, Option.bind_eq_bind,
      Option.bind_some, hb1, hb2, hb3, UInt8.ofNat_toNat]

theorem stdDecode_wire (h : raw.length = 32) :
    stdDecode (stdEncoding (ed25519Wire raw)) = some (ed25519Wire raw) := by
  have hlines : (b64Alphabet.all fun c => c != 0x0D && c != 0x0A) = true := by decide
  have hfilter : (rawStdEncoding (ed25519Wire raw)).filter (fun c => c != 0x0D && c != 0x0A) =
      rawStdEncoding (ed25519Wire raw) :=
    List.filter_eq_self.mpr fun c hc =>
      List.all_eq_true.mp hlines c (Rfc4648.mem_encode (by decide) hc)
  rw [stdDecode, stdEncoding_wire h, hfilter]
  exact decodeQuanta_rawStdEncoding _ (by rw [length_ed25519Wire h])

theorem trimmed_keyLine (h : raw.length = 32) : trimmed (keyLine raw) = true := by
  have hraw := length_rawStdEncoding_wire h
  obtain ⟨body, last, hbody⟩ : ∃ body last, rawStdEncoding (ed25519Wire raw) = body ++ [last] := by
    rcases List.eq_nil_or_concat (rawStdEncoding (ed25519Wire raw)) with hnil | ⟨body, last, h⟩
    · rw [hnil] at hraw
      cases hraw
    · exact ⟨body, last, by rw [h, List.concat_eq_append]⟩
  have hlast : last ∈ b64Alphabet := by
    refine Rfc4648.mem_encode (by decide) (show last ∈ rawStdEncoding (ed25519Wire raw) from ?_)
    rw [hbody]
    exact List.mem_append_right _ List.mem_cons_self
  have hline : keyLine raw = lit "ssh-ed25519 " ++ body ++ [last] := by
    rw [keyLine, stdEncoding_wire h, hbody, List.append_assoc]
  have hends : (spaces.all fun sp => sp != [] && sp.head? != some 0x73 &&
      b64Alphabet.all fun c => sp.getLast? != some c) = true := by decide +kernel
  rw [trimmed, List.all_eq_true]
  intro sp hsp
  have hsp' := List.all_eq_true.mp hends sp hsp
  simp only [Bool.and_eq_true, bne_iff_ne, ne_eq, List.all_eq_true] at hsp'
  obtain ⟨⟨hne, hfirst⟩, hlast'⟩ := hsp'
  rw [Bool.and_eq_true, Bool.not_eq_true', Bool.not_eq_true', ← Bool.not_eq_true,
    ← Bool.not_eq_true, List.isPrefixOf_iff_prefix, List.isSuffixOf_iff_suffix, hline]
  refine ⟨?_, ?_⟩
  · rintro ⟨rest, hrest⟩
    have hhead := congrArg List.head? hrest
    rw [List.head?_append_of_ne_nil _ hne] at hhead
    exact hfirst hhead
  · rintro ⟨front, hfront⟩
    have hend := congrArg List.getLast? hfront
    rw [List.getLast?_append_of_ne_nil _ hne, List.getLast?_concat] at hend
    exact hlast' last hlast hend

theorem splitOn_keyLine_bytes (raw : Bytes) : (keyLine raw).splitOn 0x20 =
    [keyAlgoED25519, stdEncoding (ed25519Wire raw)] := by
  have hline : keyLine raw =
      [0x20].intercalate [keyAlgoED25519, stdEncoding (ed25519Wire raw)] := by
    have hlit : lit "ssh-ed25519 " = keyAlgoED25519 ++ [0x20] := by decide
    rw [keyLine, hlit]
    simp
  rw [hline]
  refine List.splitOn_intercalate _ ?_ (by simp)
  simpa using ⟨(by decide : (0x20 : UInt8) ∉ keyAlgoED25519), space_notMem_stdEncoding _⟩

theorem parseSSHPublicKey_keyLine {parsePublicKey : Bytes → Option SSHPublicKey}
    (hx : ParsesEd25519 parsePublicKey) (h : raw.length = 32) :
    parseSSHPublicKey parsePublicKey (keyLine raw) =
      .ok ⟨keyAlgoED25519, ed25519Wire raw⟩ := by
  have hlen : (keyLine raw).length ≤ maxSSHPubKeyBytes := by
    rw [length_keyLine h]
    decide
  have hbody : stdEncoding (ed25519Wire raw) ≠ [] := by
    intro hnil
    have hraw := length_rawStdEncoding_wire h
    rw [← stdEncoding_wire h, hnil] at hraw
    cases hraw
  have hkind : keyAlgoED25519 ≠ [] := by decide
  simp only [parseSSHPublicKey, splitOn_keyLine_bytes, stdDecode_wire h, hx.reads raw h, bind_eq_ok,
    ensure_eq_ok, pure_eq_ok, decide_eq_true_eq, Bool.and_eq_true, bne_iff_ne, beq_iff_eq]
  exact ⟨(), hlen, (), trimmed_keyLine h, (), ⟨hkind, hbody⟩, (), trivial, (), trivial, (), trivial,
    trivial⟩

-- ---------------------------------------------------------------------------
-- The service
-- ---------------------------------------------------------------------------

def b64Letter (d : Nat) : UInt16 := (b64Alphabet.getD d 0).toUInt16

theorem b64Digit_letter (h : Service.b64Digit c = some d) : d < 64 ∧ b64Letter d = c := by
  have hall : ((List.range 128).all fun n => (Service.b64Digit (UInt16.ofNat n)).all fun d =>
      d < 64 && b64Letter d == UInt16.ofNat n) = true := by decide +kernel
  have hlt : c.toNat < 128 := by
    unfold Service.b64Digit at h
    dsimp only at h
    split_ifs at h <;> omega
  have hc := List.all_eq_true.mp hall c.toNat (List.mem_range.mpr hlt)
  rw [UInt16.ofNat_toNat, h, Option.all_some, Bool.and_eq_true, decide_eq_true_iff,
    beq_iff_eq] at hc
  exact hc

/-- What the pattern lets through: letters, and up to two characters of
padding. -/
theorem b64StdRe_inv {s : JsString} (h : Service.b64StdRe s = true) :
    ∃ t n, s = t ++ List.replicate n 0x3D ∧ n ≤ 2 ∧ ∀ c ∈ t, Service.isB64Char c = true := by
  simp only [Service.b64StdRe, Bool.and_eq_true, decide_eq_true_iff, List.all_eq_true,
    beq_iff_eq] at h
  obtain ⟨⟨-, hlen⟩, hpad⟩ := h
  refine ⟨s.takeWhile Service.isB64Char, (s.dropWhile Service.isB64Char).length, ?_, hlen, ?_⟩
  · rw [← List.eq_replicate_of_mem hpad, List.takeWhile_append_dropWhile]
  · intro c hc
    exact List.mem_takeWhile_imp hc

theorem b64Char_plain (h : Service.isB64Char c = true) :
    c ≠ 0x3D ∧ Service.isAsciiWhitespace c = false := by
  have hall : ((List.range 128).all fun n => !Service.isB64Char (UInt16.ofNat n) ||
      (UInt16.ofNat n != 0x3D && !Service.isAsciiWhitespace (UInt16.ofNat n))) = true := by
    decide +kernel
  have hlt : c.toNat < 128 := by
    simp only [Service.isB64Char, Bool.or_eq_true, Bool.and_eq_true, decide_eq_true_iff,
      UInt16.le_iff_toNat_le, beq_iff_eq, ← UInt16.toNat_inj, UInt16.reduceToNat] at h
    omega
  have hc := List.all_eq_true.mp hall c.toNat (List.mem_range.mpr hlt)
  simpa [h] using hc

theorem b64StdDecode_eq_some {s : JsString} (h : Service.b64StdDecode s = some blob)
    (hlen : blob.length = 51) : s = ofBytes (stdEncoding blob) := by
  unfold Service.b64StdDecode at h
  split at h
  · cases h
  · rename_i hre
    simp only [Bool.or_eq_true, Bool.not_eq_true', bne_iff_ne, not_or, Bool.not_eq_false,
      Decidable.not_not] at hre
    obtain ⟨t, n, rfl, hn, ht⟩ := b64StdRe_inv hre.1
    have hfull := hre.2
    rw [List.length_append, List.length_replicate] at hfull
    have hmod : t.length % 4 ≠ 1 := by omega
    obtain rfl : n = (4 - t.length % 4) % 4 := by omega
    rw [Service.atob_padded (fun c hc => (b64Char_plain (ht c hc)).1)
      (fun c hc => (b64Char_plain (ht c hc)).2) hmod, Option.map_eq_some_iff] at h
    obtain ⟨ds, hds, rfl⟩ := h
    obtain ⟨hlt, hletters⟩ := Rfc4648.eq_map_of_mapM (fun _ _ h => b64Digit_letter h) hds
    have hsame : t.length = ds.length := by rw [hletters, List.length_map]
    rw [Rfc4648.length_sextets] at hlen
    have hds : ds.length = 68 := by omega
    have hraw : rawStdEncoding (Rfc4648.sextets ds) = ds.map (b64Alphabet.getD · 0) := by
      rw [rawStdEncoding, Rfc4648.encode_eq_map, Rfc4648.digits_sextets ds (by rw [hds]) hlt]
    have hstd : stdEncoding (Rfc4648.sextets ds) = ds.map (b64Alphabet.getD · 0) := by
      rw [stdEncoding, hraw, List.length_map, hds]
      exact List.append_nil _
    rw [hstd, hsame, hds, hletters, ofBytes, List.map_map]
    exact List.append_nil _

theorem getUint32_small {b : Bytes} (hlen : offset + 4 ≤ b.length) (hn : n < 256)
    (h : Service.getUint32 b offset = n) : (b.drop offset).take 4 = [0, 0, 0, UInt8.ofNat n] := by
  have hfour : ((b.drop offset).take 4).length = 4 := by
    rw [List.length_take, List.length_drop]
    omega
  unfold Service.getUint32 at h
  generalize (b.drop offset).take 4 = four at h hfour
  match four, hfour with
  | [w, x, y, z], _ =>
    simp only [List.foldl_cons, List.foldl_nil] at h
    have hw : w = 0 := UInt8.toNat_inj.mp (by rw [UInt8.toNat_zero]; omega)
    have hx : x = 0 := UInt8.toNat_inj.mp (by rw [UInt8.toNat_zero]; omega)
    have hy : y = 0 := UInt8.toNat_inj.mp (by rw [UInt8.toNat_zero]; omega)
    have hz : z = UInt8.ofNat n := by
      rw [← UInt8.ofNat_toNat (x := z)]
      congr 1
      omega
    rw [hw, hx, hy, hz]

theorem wire_of_offsets {blob : Bytes} (hlen : blob.length = 51)
    (hkind : Service.getUint32 blob 0 = 11) (htype : (blob.drop 4).take 11 = keyAlgoED25519)
    (hsize : Service.getUint32 blob 15 = 32) :
    ∃ raw, raw.length = 32 ∧ blob = ed25519Wire raw := by
  have hraw : (blob.drop 19).length = 32 := by rw [List.length_drop, hlen]
  refine ⟨blob.drop 19, hraw, ?_⟩
  have h0 := getUint32_small (by omega) (by decide) hkind
  have h15 := getUint32_small (by omega) (by decide) hsize
  calc blob
    _ = blob.take 4 ++ ((blob.drop 4).take 11 ++ ((blob.drop 15).take 4 ++ blob.drop 19)) := by
      have hsplit (n m : Nat) : (blob.drop n).take m ++ blob.drop (n + m) = blob.drop n := by
        rw [← List.drop_drop]
        exact List.take_append_drop m _
      rw [hsplit 15 4, hsplit 4 11]
      exact (List.take_append_drop 4 blob).symm
    _ = ed25519Wire (blob.drop 19) := by
      rw [ed25519Wire_eq hraw, htype, h15]
      rw [List.drop_zero] at h0
      rw [h0]
      simp only [List.append_assoc]
      rfl

theorem parseSshEd25519Line_inv {s : JsString} (h : Service.parseSshEd25519Line s = .ok blob) :
    ∃ raw, raw.length = 32 ∧ s = ofBytes (keyLine raw) ∧ blob = ed25519Wire raw := by
  unfold Service.parseSshEd25519Line at h
  split at h
  · rename_i kind body hparts
    simp only [bind_eq_ok, ensure_eq_ok, beq_iff_eq] at h
    obtain ⟨_, rfl, h⟩ := h
    split at h
    · cases h
    · rename_i blob' hdecode
      simp only [bind_eq_ok, ensure_eq_ok, pure_eq_ok, Bool.and_eq_true, beq_iff_eq] at h
      obtain ⟨_, hlen, _, ⟨hkind, htype⟩, _, hsize, rfl⟩ := h
      obtain ⟨raw, hraw, rfl⟩ := wire_of_offsets hlen hkind htype hsize
      refine ⟨raw, hraw, ?_, rfl⟩
      have hline : [0x20].intercalate (s.splitOn 0x20) = s := List.intercalate_splitOn _
      rw [hparts, b64StdDecode_eq_some hdecode hlen, Service.sshEd25519, ← splitOn_keyLine] at hline
      rw [← hline]
      exact List.intercalate_splitOn _
  · cases h

-- ---------------------------------------------------------------------------
-- Fingerprints
-- ---------------------------------------------------------------------------

theorem b64StdEncodeNoPad_eq (b : Bytes) :
    Service.b64StdEncodeNoPad b = ofBytes (rawStdEncoding b) := by
  have hplain : (b64Alphabet.all fun c => c.toUInt16 != 0x3D) = true := by decide
  have hclean : ∀ c ∈ ofBytes (rawStdEncoding b), c ≠ 0x3D := by
    intro c hc
    obtain ⟨x, hx, rfl⟩ := List.mem_map.mp hc
    exact bne_iff_ne.mp (List.all_eq_true.mp hplain x (Rfc4648.mem_encode (by decide) hx))
  rw [Service.b64StdEncodeNoPad, Service.btoa, stdEncoding, ofBytes, List.map_append,
    List.map_replicate]
  exact Service.dropPadding_append hclean _

-- ---------------------------------------------------------------------------
-- One spelling
-- ---------------------------------------------------------------------------

theorem parseSSHPublicKey_iff {parsePublicKey : Bytes → Option SSHPublicKey}
    (hx : ParsesEd25519 parsePublicKey) (line : GoString) :
    (∃ key, parseSSHPublicKey parsePublicKey line = .ok key) ↔ ∃ k, LineOf k line := by
  constructor
  · rintro ⟨key, hkey⟩
    obtain ⟨raw, hline, hraw, -⟩ := keyLine_of_parse hx.only hkey
    exact ⟨raw, hraw, hline⟩
  · rintro ⟨k, hk, rfl⟩
    exact ⟨_, parseSSHPublicKey_keyLine hx hk⟩

/-- A text is the line of a key in one encoding exactly when it is in the
other. -/
theorem lineOf_textEncode (k : Bytes) (s : JsString) :
    LineOf k (textEncode s) ↔ k.length = 32 ∧ s = ofBytes (keyLine k) := by
  constructor
  · rintro ⟨hk, hs⟩
    refine ⟨hk, ?_⟩
    rw [← hs]
    exact (Service.ofBytes_textEncode (hs ▸ keyLine_ascii k)).symm
  · rintro ⟨hk, rfl⟩
    exact ⟨hk, Service.textEncode_ofBytes (keyLine_ascii k)⟩

/-- Both parsers take a text exactly when it is the line of a key, which is then
the only one, and agree on its wire form and fingerprint. So no two lines are
lines of the same key. -/
theorem ssh_key_one_spelling {parsePublicKey : Bytes → Option SSHPublicKey} {C : Crypto}
    {W : Service.Subtle} (hx : ParsesEd25519 parsePublicKey) (hsha : W.sha256 = C.sha256) :
    (∀ line : GoString, line.length ≤ maxSSHPubKeyBytes →
      ((∃ key, parseSSHPublicKey parsePublicKey line = .ok key) ↔ ∃ k, LineOf k line)) ∧
    (∀ s : JsString, (textEncode s).length ≤ maxSSHPubKeyBytes →
      ((∃ key, parseSSHPublicKey parsePublicKey (textEncode s) = .ok key) ↔
        ∃ blob, Service.parseSshEd25519Line s = .ok blob) ∧
      ((∃ blob, Service.parseSshEd25519Line s = .ok blob) ↔ ∃ k, LineOf k (textEncode s))) ∧
    (∀ s k, LineOf k (textEncode s) → (∀ k', LineOf k' (textEncode s) → k' = k) ∧
      parseSSHPublicKey parsePublicKey (textEncode s) = .ok ⟨keyAlgoED25519, ed25519Wire k⟩ ∧
      Service.parseSshEd25519Line s = .ok (ed25519Wire k) ∧
      Service.sshKeyFingerprint W s =
        .ok (ofBytes (Protocol.sshKeyFingerprint C ⟨keyAlgoED25519, ed25519Wire k⟩))) ∧
    (∀ line line' key, parseSSHPublicKey parsePublicKey line = .ok key →
      parseSSHPublicKey parsePublicKey line' = .ok key → line = line') ∧
    ∀ s s' blob, Service.parseSshEd25519Line s = .ok blob →
      Service.parseSshEd25519Line s' = .ok blob → s = s' := by
  refine ⟨fun line _ => parseSSHPublicKey_iff hx line, fun s _ => ?_, fun s k hk => ?_,
    fun line line' key h h' => ?_, ?_⟩
  · have hservice : (∃ blob, Service.parseSshEd25519Line s = .ok blob) ↔
        ∃ k, LineOf k (textEncode s) := by
      constructor
      · rintro ⟨blob, hblob⟩
        obtain ⟨raw, hraw, hs, -⟩ := parseSshEd25519Line_inv hblob
        exact ⟨raw, (lineOf_textEncode raw s).mpr ⟨hraw, hs⟩⟩
      · rintro ⟨k, hk⟩
        obtain ⟨hlen, rfl⟩ := (lineOf_textEncode k s).mp hk
        exact ⟨_, parseSshEd25519Line_keyLine hlen⟩
    exact ⟨(parseSSHPublicKey_iff hx _).trans hservice.symm, hservice⟩
  · obtain ⟨hlen, rfl⟩ := (lineOf_textEncode k s).mp hk
    have hservice := parseSshEd25519Line_keyLine hlen
    refine ⟨fun k' hk' => hk'.unique hk, ?_, hservice, ?_⟩
    · rw [hk.2]
      exact parseSSHPublicKey_keyLine hx hlen
    · have htext : ofBytes (lit "SHA256:") = js "SHA256:" := rfl
      rw [Service.sshKeyFingerprint, hservice, Protocol.sshKeyFingerprint, ofBytes, List.map_append,
        hsha]
      exact congrArg Except.ok (congrArg₂ (· ++ ·) htext.symm (b64StdEncodeNoPad_eq _))
  · rw [← parseSSHPublicKey_line h, parseSSHPublicKey_line h']
  · intro s s' blob hs hs'
    obtain ⟨raw, hraw, rfl, rfl⟩ := parseSshEd25519Line_inv hs
    obtain ⟨raw', hraw', rfl, hwire⟩ := parseSshEd25519Line_inv hs'
    rw [ed25519Wire_inj hwire hraw hraw']

namespace Sample

/-- x/crypto, on keys of this one type. -/
def parseEd25519 (blob : Bytes) : Option SSHPublicKey :=
  if blob.length = 51 ∧ blob.take 19 = (ed25519Wire (List.replicate 32 0)).take 19 then
    some ⟨keyAlgoED25519, blob⟩
  else none

theorem parsesEd25519 : ParsesEd25519 parseEd25519 := by
  have htake (raw : Bytes) (h : raw.length = 32) : ed25519Wire raw =
      (ed25519Wire (List.replicate 32 0)).take 19 ++ raw := by
    rw [ed25519Wire_eq h]
    rfl
  refine ⟨fun raw h => ?_, fun blob key h _ => ?_⟩
  · have hfirst : (ed25519Wire raw).take 19 = (ed25519Wire (List.replicate 32 0)).take 19 := by
      rw [htake raw h, List.take_append_of_le_length (by decide)]
      rfl
    rw [parseEd25519, if_pos ⟨length_ed25519Wire h, hfirst⟩]
  · unfold parseEd25519 at h
    split at h
    · rename_i hblob
      cases h
      have hraw : (blob.drop 19).length = 32 := by rw [List.length_drop, hblob.1]
      refine ⟨blob.drop 19, hraw, ?_⟩
      rw [htake _ hraw, ← hblob.2]
      exact (List.take_append_drop 19 blob).symm
    · cases h

def caLine : JsString := js
  "ssh-ed25519 AAAAC3NzaC1lZDI1NTE5AAAAIG56HN0psLeP0Tr0xVmP7/TvKpcWbjym8uT7/M2AUFvx"

def caKey : Bytes := (Service.b64uDecode (js "bnoc3Smwt4_ROvTFWY_v9O8qlxZuPKby5Pv8zYBQW_E")).getD []

def caDigest (_ : Bytes) : Bytes :=
  (Service.b64uDecode (js "LA4QoSmstGCy_UHfdU3jKjnPz56pQzud9OmslMh3g8w")).getD []

def caCrypto : Crypto where
  sha256 := caDigest
  hmacSHA256 _ _ := List.replicate 32 0
  ed25519Verify _ _ _ := true
  length_sha256 _ := by
    show (caDigest []).length = 32
    decide +kernel

end Sample

theorem ssh_key_one_spelling_sample :
    parseSSHPublicKey Sample.parseEd25519 (textEncode Sample.caLine) =
      .ok ⟨keyAlgoED25519, ed25519Wire Sample.caKey⟩ ∧
    Service.parseSshEd25519Line Sample.caLine = .ok (ed25519Wire Sample.caKey) ∧
    Service.sshKeyFingerprint ⟨Sample.caDigest, fun _ _ _ => true⟩ Sample.caLine =
      .ok (js "SHA256:LA4QoSmstGCy/UHfdU3jKjnPz56pQzud9OmslMh3g8w") := by
  have hline : Sample.caKey.length = 32 ∧ textEncode Sample.caLine = keyLine Sample.caKey := by
    decide +kernel
  have hprint : ofBytes (Protocol.sshKeyFingerprint Sample.caCrypto
      ⟨keyAlgoED25519, ed25519Wire Sample.caKey⟩) =
      js "SHA256:LA4QoSmstGCy/UHfdU3jKjnPz56pQzud9OmslMh3g8w" := by
    decide +kernel
  have hspelled := ssh_key_one_spelling (C := Sample.caCrypto)
    (W := ⟨Sample.caDigest, fun _ _ _ => true⟩) Sample.parsesEd25519 rfl
  obtain ⟨-, hgo, hservice, hfp⟩ := hspelled.2.2.1 Sample.caLine Sample.caKey hline
  exact ⟨hgo, hservice, hprint ▸ hfp⟩

end Grantd.Install
