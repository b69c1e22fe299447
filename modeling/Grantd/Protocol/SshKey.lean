import Grantd.Protocol.Ids
import Grantd.Protocol.Validate

/-!
# SSH public keys

go/internal/protocol/sshkey.go: a line is exactly a type and a base64 body,
and nothing is normalized. What a blob means is decided by x/crypto/ssh, which
is a parameter.
-/

namespace Grantd.Protocol

open Base Canonical

def b64Alphabet : GoString :=
  lit "ABCDEFGHIJKLMNOPQRSTUVWXYZabcdefghijklmnopqrstuvwxyz0123456789+/"

def rawStdEncoding (b : Bytes) : GoString := Rfc4648.encode 6 b64Alphabet b

/-- `base64.StdEncoding`: padded to a multiple of four characters. -/
def stdEncoding (b : Bytes) : GoString :=
  rawStdEncoding b ++ List.replicate ((4 - (rawStdEncoding b).length % 4) % 4) 0x3D

def b64Digit (c : UInt8) : Option Nat := b64Alphabet.idxOf? c

/-- The quanta of a padded body. Unused low bits may be anything, as the
decoder is not strict. -/
def decodeQuanta : GoString → Option Bytes
  | [] => some []
  | a :: b :: c :: d :: rest => do
    let a ← b64Digit a
    let b ← b64Digit b
    let first := UInt8.ofNat (a * 4 + b / 16)
    if c = 0x3D then
      if d = 0x3D ∧ rest = [] then some [first] else none
    else do
      let c ← b64Digit c
      let second := UInt8.ofNat (b % 16 * 16 + c / 4)
      if d = 0x3D then
        if rest = [] then some [first, second] else none
      else do
        let d ← b64Digit d
        let tail ← decodeQuanta rest
        some (first :: second :: UInt8.ofNat (c % 4 * 64 + d) :: tail)
  | _ => none

/-- `base64.StdEncoding.DecodeString`, which skips CR and LF. -/
def stdDecode (s : GoString) : Option Bytes :=
  decodeQuanta (s.filter fun c => c != 0x0D && c != 0x0A)

/-- The UTF-8 forms of the runes `unicode.IsSpace` accepts. -/
def spaces : List GoString :=
  [[0x09], [0x0A], [0x0B], [0x0C], [0x0D], [0x20], [0xC2, 0x85], [0xC2, 0xA0], [0xE1, 0x9A, 0x80],
    [0xE2, 0x80, 0x80], [0xE2, 0x80, 0x81], [0xE2, 0x80, 0x82], [0xE2, 0x80, 0x83],
    [0xE2, 0x80, 0x84], [0xE2, 0x80, 0x85], [0xE2, 0x80, 0x86], [0xE2, 0x80, 0x87],
    [0xE2, 0x80, 0x88], [0xE2, 0x80, 0x89], [0xE2, 0x80, 0x8A], [0xE2, 0x80, 0xA8],
    [0xE2, 0x80, 0xA9], [0xE2, 0x80, 0xAF], [0xE2, 0x81, 0x9F], [0xE3, 0x80, 0x80]]

/-- Whether `strings.TrimSpace` leaves the line as it is. -/
def trimmed (line : GoString) : Bool :=
  spaces.all fun sp => !sp.isPrefixOf line && !sp.isSuffixOf line

/-- `ssh.PublicKey`, by what the source asks of it: `Type()` and `Marshal()`. -/
structure SSHPublicKey where
  type : GoString
  wire : Bytes
  deriving DecidableEq, Repr

inductive SSHKeyError
  | large
  | format
  | type
  | body
  | key
  deriving DecidableEq, Repr

def keyAlgoED25519 : GoString := lit "ssh-ed25519"

/-- An Ed25519 key as x/crypto/ssh writes it. -/
def ed25519Wire (raw : Bytes) : Bytes := writeLP keyAlgoED25519 ++ writeLP raw

/-- `ParseSSHPublicKey`; `parsePublicKey` is `ssh.ParsePublicKey`. -/
def parseSSHPublicKey (parsePublicKey : Bytes → Option SSHPublicKey) (line : GoString) :
    Except SSHKeyError SSHPublicKey := do
  ensure (line.length ≤ maxSSHPubKeyBytes) .large
  ensure (trimmed line) .format
  match line.splitOn 0x20 with
  | [kind, body] =>
    ensure (kind != [] && body != []) .format
    ensure (kind == keyAlgoED25519) .type
    match stdDecode body with
    | none => throw .body
    | some blob =>
      match parsePublicKey blob with
      | none => throw .key
      | some key =>
        ensure (key.type == keyAlgoED25519) .type
        ensure (stdEncoding key.wire == body) .format
        pure key
  | _ => throw .format

def sshKeyFingerprint (C : Crypto) (key : SSHPublicKey) : GoString :=
  lit "SHA256:" ++ rawStdEncoding (C.sha256 key.wire)

/-- The two-field line of a key, as `idkey.PublicSSHLine` and
`NewEphemeralSSHKey` write it. -/
def publicSSHLine (key : SSHPublicKey) : GoString := key.type ++ 0x20 :: stdEncoding key.wire

theorem stdEncoding_inj (h : stdEncoding a = stdEncoding b) : a = b := by
  -- The padding character is not in the alphabet, so it can be dropped again.
  have hdrop (x : Bytes) : (stdEncoding x).filter (· != 0x3D) = rawStdEncoding x := by
    have hmem : ∀ c ∈ rawStdEncoding x, c ∈ b64Alphabet := fun c hc =>
      Rfc4648.mem_encode (by decide) hc
    have hpad : b64Alphabet.all (· != 0x3D) = true := by decide
    simp only [stdEncoding, List.filter_append, List.filter_replicate]
    simpa using fun c hc => by simpa using List.all_eq_true.mp hpad c (hmem c hc)
  have hraw : rawStdEncoding a = rawStdEncoding b := by rw [← hdrop a, ← hdrop b, h]
  exact Rfc4648.encode_inj (by decide) (by decide) (by decide) (by decide) hraw

theorem parseSSHPublicKey_inv {parsePublicKey : Bytes → Option SSHPublicKey}
    (h : parseSSHPublicKey parsePublicKey line = .ok key) : line.length ≤ maxSSHPubKeyBytes ∧
      (∃ blob, parsePublicKey blob = some key) ∧ key.type = keyAlgoED25519 ∧
      publicSSHLine key = line := by
  simp only [parseSSHPublicKey, bind_eq_ok, ensure_eq_ok] at h
  obtain ⟨_, hlen, _, -, h⟩ := h
  refine ⟨of_decide_eq_true hlen, ?_⟩
  split at h
  · rename_i kind body hparts
    simp only [bind_eq_ok, ensure_eq_ok, beq_iff_eq] at h
    obtain ⟨_, -, _, rfl, h⟩ := h
    split at h
    · cases h
    · rename_i blob hblob
      split at h
      · cases h
      · rename_i parsed hparsed
        simp only [bind_eq_ok, ensure_eq_ok, pure_eq_ok, beq_iff_eq] at h
        obtain ⟨_, htype, _, rfl, rfl⟩ := h
        have hline : [0x20].intercalate (line.splitOn 0x20) = line := List.intercalate_splitOn _
        rw [hparts] at hline
        exact ⟨⟨blob, hparsed⟩, htype, by simpa [publicSSHLine, htype] using hline⟩
  · cases h

theorem parseSSHPublicKey_line {parsePublicKey : Bytes → Option SSHPublicKey}
    (h : parseSSHPublicKey parsePublicKey line = .ok key) : publicSSHLine key = line :=
  (parseSSHPublicKey_inv h).2.2.2

theorem length_of_parseSSHPublicKey {parsePublicKey : Bytes → Option SSHPublicKey}
    (h : parseSSHPublicKey parsePublicKey line = .ok key) : line.length ≤ maxSSHPubKeyBytes :=
  (parseSSHPublicKey_inv h).1

theorem space_notMem_stdEncoding (b : Bytes) : 0x20 ∉ stdEncoding b := by
  intro h
  rcases List.mem_append.mp h with hraw | hpad
  · have hmem : 0x20 ∈ b64Alphabet := Rfc4648.mem_encode (by decide) hraw
    exact absurd hmem (by decide)
  · exact absurd (List.eq_of_mem_replicate hpad) (by decide)

/-- A line is the line of one key: the body has no space, so the last space is
where the type ends. -/
theorem publicSSHLine_inj (h : publicSSHLine a = publicSSHLine b) : a = b := by
  obtain ⟨type, wire⟩ := a
  obtain ⟨type', wire'⟩ := b
  -- A longer type would put a space into the other body.
  have hbody (x y : Bytes) (c : GoString) : stdEncoding x ≠ c ++ 0x20 :: stdEncoding y :=
    fun h => space_notMem_stdEncoding x (by simp [h])
  simp only [publicSSHLine] at h
  rcases List.append_eq_append_iff.mp h with ⟨c, rfl, hc⟩ | ⟨c, rfl, hc⟩
  all_goals
    cases c with
    | nil =>
      obtain ⟨-, henc⟩ := List.cons.inj hc
      simp [stdEncoding_inj henc]
    | cons x c =>
      obtain ⟨-, henc⟩ := List.cons.inj hc
      exact (hbody _ _ c henc).elim

end Grantd.Protocol
