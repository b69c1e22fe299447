import Grantd.Base.Rfc4648
import Grantd.Canonical

/-!
# Identifiers

go/internal/protocol/ids.go. A host or agent id is a hash of the key it names,
so it certifies itself; a grant id is random. The hash, the MAC and the
signature scheme come from Go's crypto packages and are parameters.
-/

namespace Grantd.Protocol

open Base Canonical

/-- The primitives of Go's crypto packages. Keys, digests and signatures are
raw bytes. -/
structure Crypto where
  sha256 : Bytes → Bytes
  hmacSHA256 (secret msg : Bytes) : Bytes
  ed25519Verify (pub msg sig : Bytes) : Bool
  length_sha256 (b : Bytes) : (sha256 b).length = 32

def version : UInt64 := 1

def nonceLen : Nat := 16
def secretLen : Nat := 32
def publicKeySize : Nat := 32
def signatureSize : Nat := 64

def b32Alphabet : GoString := lit "abcdefghijklmnopqrstuvwxyz234567"

/-- RFC 4648 base32 with the lowercase alphabet and no padding. -/
def b32 (b : Bytes) : GoString := Rfc4648.encode 5 b32Alphabet b

inductive IDError
  | badPublicKey
  | idMismatch
  deriving DecidableEq, Repr

variable (C : Crypto)

/-- The first 20 bytes of SHA-256 over the raw public key. -/
def idMaterial (pub : Bytes) : Except IDError Bytes := do
  ensure (pub.length == publicKeySize) .badPublicKey
  pure ((C.sha256 pub).take 20)

def deriveID (tag : GoString) (pub : Bytes) : Except IDError GoString := do
  let m ← idMaterial C pub
  pure (tag ++ b32 m)

def hostID (pub : Bytes) : Except IDError GoString := deriveID C (lit "h_") pub
def agentID (pub : Bytes) : Except IDError GoString := deriveID C (lit "a_") pub

def checkID (tag id : GoString) (pub : Bytes) : Except IDError Unit := do
  let want ← deriveID C tag pub
  ensure (id == want) .idMismatch

def checkHostID (id : GoString) (pub : Bytes) : Except IDError Unit := checkID C (lit "h_") id pub
def checkAgentID (id : GoString) (pub : Bytes) : Except IDError Unit := checkID C (lit "a_") id pub

def isB32 (c : UInt8) : Bool := within 0x61 0x7A c || within 0x32 0x37 c

/-- The pattern `^tag[a-z2-7]{n}$`. -/
def matchesID (tag : GoString) (n : Nat) (s : GoString) : Bool :=
  tag.isPrefixOf s && (s.drop tag.length).length == n && (s.drop tag.length).all isB32

def validHostID (s : GoString) : Bool := matchesID (lit "h_") 32 s
def validAgentID (s : GoString) : Bool := matchesID (lit "a_") 32 s
def validGrantID (s : GoString) : Bool := matchesID (lit "g_") 16 s

def newGrantID (raw : Bytes) : GoString := lit "g_" ++ b32 raw

def b64URLAlphabet : GoString :=
  lit "ABCDEFGHIJKLMNOPQRSTUVWXYZabcdefghijklmnopqrstuvwxyz0123456789-_"

/-- Base64url without padding. -/
def b64 (b : Bytes) : GoString := Rfc4648.encode 6 b64URLAlphabet b

def b64URLDigit (c : UInt8) : Option Nat := b64URLAlphabet.idxOf? c

/-- `B64.DecodeString`. It skips CR and LF, and unused low bits may be
anything, as the decoder is not strict. -/
def b64Decode (s : GoString) : Option Bytes :=
  let s := s.filter fun c => c != 0x0D && c != 0x0A
  if s.length % 4 = 1 then none else (s.mapM b64URLDigit).map Rfc4648.sextets

inductive SecretError
  | malformed
  | length (got : Nat)
  deriving DecidableEq, Repr

def decodeSecret (s : GoString) : Except SecretError Bytes :=
  match b64Decode s with
  | none => .error .malformed
  | some raw => if raw.length = secretLen then .ok raw else .error (.length raw.length)

def capabilityURL (origin hostID grantID : GoString) (secret : Bytes) : GoString :=
  origin ++ lit "/g/" ++ hostID ++ lit "/" ++ grantID ++ lit "#" ++ b64 secret

/-- `protocol.Verify`: lengths first, then the signature. -/
def verify (pub msg sig : Bytes) : Bool :=
  pub.length == publicKeySize && sig.length == signatureSize && C.ed25519Verify pub msg sig

-- ---------------------------------------------------------------------------
-- Base64url text
-- ---------------------------------------------------------------------------

theorem b64Decode_b64 (b : Bytes) : b64Decode (b64 b) = some b := by
  have hplain : b64URLAlphabet.all (fun c => c != 0x0D && c != 0x0A) = true := by decide
  have hfilter : (b64 b).filter (fun c => c != 0x0D && c != 0x0A) = b64 b :=
    List.filter_eq_self.mpr fun c hc =>
      List.all_eq_true.mp hplain c (Rfc4648.mem_encode (by decide) hc)
  have hlen : ¬ (b64 b).length % 4 = 1 := by
    simp only [b64, Rfc4648.length_encode, Rfc4648.groups]
    omega
  have hdigit : ((List.range 64).all fun d =>
      b64URLDigit (b64URLAlphabet.getD d 0) == some d) = true := by decide
  have hread : (b64 b).mapM b64URLDigit = some (Rfc4648.digits 6 b) :=
    Rfc4648.mapM_encode fun d hd =>
      beq_iff_eq.mp (List.all_eq_true.mp hdigit d (List.mem_range.mpr hd))
  simp only [b64Decode, hfilter, hlen, hread, if_false, Option.map_some, Rfc4648.sextets_digits]

-- ---------------------------------------------------------------------------
-- Derived and drawn ids match their grammars
-- ---------------------------------------------------------------------------

theorem isB32_of_mem (h : c ∈ b32 b) : isB32 c = true := by
  have hmem : c ∈ b32Alphabet := Rfc4648.mem_encode (by decide) h
  have hall : b32Alphabet.all isB32 = true := by decide
  exact List.all_eq_true.mp hall c hmem

theorem matchesID_b32 (tag : GoString) (hb : Rfc4648.groups 5 b.length = n) :
    matchesID tag n (tag ++ b32 b) = true := by
  have hlen : (b32 b).length = n := by simpa [b32] using hb
  simp only [matchesID, List.drop_left, List.isPrefixOf_iff_prefix, Bool.and_eq_true,
    List.prefix_append, beq_iff_eq, hlen, true_and, List.all_eq_true]
  exact fun c hc => isB32_of_mem hc

theorem matchesID_deriveID {id : GoString} (h : deriveID C tag pub = .ok id) :
    matchesID tag 32 id = true := by
  simp only [deriveID, idMaterial, bind_eq_ok, ensure_eq_ok, pure_eq_ok] at h
  obtain ⟨_, ⟨-, -, rfl⟩, rfl⟩ := h
  exact matchesID_b32 tag (by simp [C.length_sha256, Rfc4648.groups])

theorem length_of_deriveID {id : GoString} (h : deriveID C tag pub = .ok id) :
    pub.length = publicKeySize := by
  simp only [deriveID, idMaterial, bind_eq_ok, ensure_eq_ok, beq_iff_eq] at h
  obtain ⟨_, ⟨_, hlen, -⟩, -⟩ := h
  exact hlen

theorem validGrantID_newGrantID (h : raw.length = 10) : validGrantID (newGrantID raw) = true :=
  matchesID_b32 (lit "g_") (by simp [h, Rfc4648.groups])

theorem length_of_matchesID (h : matchesID tag n s = true) : s.length = tag.length + n := by
  simp only [matchesID, Bool.and_eq_true, List.isPrefixOf_iff_prefix, beq_iff_eq] at h
  obtain ⟨⟨⟨rest, rfl⟩, hlen⟩, -⟩ := h
  simpa using hlen

theorem mem_of_matchesID (h : matchesID tag n s = true) (hc : c ∈ s) :
    c ∈ tag ∨ isB32 c = true := by
  simp only [matchesID, Bool.and_eq_true, List.isPrefixOf_iff_prefix, List.all_eq_true] at h
  obtain ⟨⟨⟨rest, rfl⟩, -⟩, hall⟩ := h
  rcases List.mem_append.mp hc with htag | hrest
  · exact .inl htag
  · exact .inr (hall c (by simpa using hrest))

end Grantd.Protocol
