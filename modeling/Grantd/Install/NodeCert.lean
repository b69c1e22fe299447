import Grantd.Install.Node
import Grantd.Signer.SshCert

/-!
# Certificates in the Node client

The parser of install/redeem.mjs for an SSH user certificate, and the form in
which a CA signs one. The parser takes any bytes: it reads strings by their
length prefixes, cuts off the last one at the end of the buffer, and ignores
what stands behind the signature. What it verifies is the part it has read, so
if that part is what the CA has signed, the fields are those of the
certificate.
-/

namespace Grantd.Signer

open Base Protocol
open Canonical (writeLP)
open Code (bigEndian)

-- ---------------------------------------------------------------------------
-- What the CA signs
-- ---------------------------------------------------------------------------

def Certificate.typeName (c : Certificate) : GoString := c.key.type ++ lit "-cert-v01@openssh.com"

def Certificate.keyBytes (c : Certificate) : Bytes := c.key.wire.drop (writeLP c.key.type).length

/-- Options and extensions, in the order of their names; a value that is not
empty is a string of its own. -/
def packTuples (options : List (GoString × GoString)) : Bytes :=
  options.flatMap fun (name, value) =>
    writeLP name ++ writeLP (if value = [] then [] else writeLP value)

/-- The certificate behind its key, up to the signature. -/
def Certificate.generic (c : Certificate) : Bytes :=
  bigEndian 8 c.serial.toNat ++ (bigEndian 4 c.certType.toNat ++ (writeLP c.keyID ++
    (writeLP (c.validPrincipals.flatMap writeLP) ++ (bigEndian 8 c.validAfter.toNat ++
      (bigEndian 8 c.validBefore.toNat ++ (writeLP (packTuples c.criticalOptions) ++
        (writeLP (packTuples c.extensions) ++ (writeLP [] ++ writeLP c.signatureKey.wire))))))))

/-- `bytesForSigning` of x/crypto/ssh. -/
def Certificate.bytesForSigning (c : Certificate) : Bytes :=
  writeLP c.typeName ++ (writeLP c.nonce ++ (c.keyBytes ++ c.generic))

end Grantd.Signer

namespace Grantd.Install

open Base Service
open Canonical (writeLP)
open Code (bigEndian)

-- ---------------------------------------------------------------------------
-- parseCertificate
-- ---------------------------------------------------------------------------

structure CertFields where
  nonce : Bytes
  key : Bytes
  serial : Nat
  certType : Nat
  keyID : Bytes
  principals : Bytes
  validAfter : Nat
  validBefore : Nat
  criticalOptions : Bytes
  extensions : Bytes
  reserved : Bytes
  signatureKey : Bytes

def Reader.certFields (r : Reader) : Option (CertFields × Reader) := do
  let (nonce, r) ← r.string
  let (key, r) ← r.string
  let (serial, r) ← r.u64
  let (certType, r) ← r.u32
  let (keyID, r) ← r.string
  let (principals, r) ← r.string
  let (validAfter, r) ← r.u64
  let (validBefore, r) ← r.u64
  let (criticalOptions, r) ← r.string
  let (extensions, r) ← r.string
  let (reserved, r) ← r.string
  let (signatureKey, r) ← r.string
  some ({ nonce, key, serial, certType, keyID, principals, validAfter, validBefore, criticalOptions,
          extensions, reserved, signatureKey }, r)

structure NodeCert where
  key : Bytes
  serial : Nat
  certType : Nat
  keyID : JsString
  principals : List JsString
  validAfter : Nat
  validBefore : Nat
  extensions : Bytes
  caKey : Bytes
  deriving DecidableEq, Repr

def certName : String := "ssh-ed25519-cert-v01@openssh.com"

def Node.parseCertificate (N : Node) (line : JsString) : Except Failure NodeCert :=
  let noCertificate := refuse "the response does not carry an ssh-ed25519 certificate"
  match (trim line).splitOn 0x20 with
  | [kind, body] => do
    ensure (kind == js certName) noCertificate
    let blob := N.base64 body
    let (type, r) ← orThrow (Reader.string ⟨blob, 0⟩)
    ensure (N.utf8 type == js certName) (refuse "certificate type mismatch")
    let (fields, r) ← orThrow r.certFields
    -- Everything before the signature is signed.
    let (signatureBlob, _) ← orThrow r.string
    let principals ← orThrow (Reader.strings fields.principals.length ⟨fields.principals, 0⟩)
    let (caType, kr) ← orThrow (Reader.string ⟨fields.signatureKey, 0⟩)
    ensure (N.utf8 caType == js "ssh-ed25519") (refuse "certificate CA is not ssh-ed25519")
    let (caKey, _) ← orThrow kr.string
    let (signatureType, sr) ← orThrow (Reader.string ⟨signatureBlob, 0⟩)
    ensure (N.utf8 signatureType == js "ssh-ed25519")
      (refuse "certificate signature is not ssh-ed25519")
    let (signature, _) ← orThrow sr.string
    ensure (N.verifyRaw caKey (blob.take r.off) signature)
      (refuse "the certificate signature does not verify under its own CA key")
    pure { key := fields.key, serial := fields.serial, certType := fields.certType
           keyID := N.utf8 fields.keyID, principals := principals.map N.utf8
           validAfter := fields.validAfter, validBefore := fields.validBefore
           extensions := fields.extensions, caKey }
  | _ => throw noCertificate

-- ---------------------------------------------------------------------------
-- What is read
-- ---------------------------------------------------------------------------

namespace Reader

def At (r : Reader) (rest : Bytes) : Prop := r.buf.drop r.off = rest

variable {r : Reader}

theorem At.string (h : r.At (writeLP b ++ rest)) (hb : b.length < 2 ^ 32) :
    ∃ r', r.string = some (b, r') ∧ r'.At rest :=
  ⟨_, string_eq h hb⟩

theorem At.u64 {n : UInt64} (h : r.At (bigEndian 8 n.toNat ++ rest)) :
    ∃ r', r.u64 = some (n.toNat, r') ∧ r'.At rest :=
  ⟨_, uint_eq (by decide) h n.toNat_lt⟩

theorem At.u32 {n : UInt32} (h : r.At (bigEndian 4 n.toNat ++ rest)) :
    ∃ r', r.u32 = some (n.toNat, r') ∧ r'.At rest :=
  ⟨_, uint_eq (by decide) h n.toNat_lt⟩

theorem strings_one (hb : b.length < 2 ^ 32) (hn : 0 < fuel) :
    strings fuel ⟨writeLP b, 0⟩ = some [b] := by
  have hat : At ⟨writeLP b, 0⟩ (writeLP b ++ []) := by rw [At, List.append_nil]; rfl
  have hlen : (writeLP b).length = 4 + b.length := by
    simp [writeLP, Canonical.u32be, Code.length_bigEndian]
  obtain ⟨hread, -⟩ := string_eq hat hb
  cases fuel with
  | zero => cases hn
  | succ fuel =>
    rw [strings, if_pos (by simp only [hlen]; omega), hread]
    simp only [bind, Option.bind_some]
    have hend : strings fuel ⟨writeLP b, 0 + (4 + b.length)⟩ = some [] := by
      cases fuel with
      | zero => rfl
      | succ fuel => rw [strings, if_neg (by simp only [hlen]; omega)]
    rw [hend]
    rfl

end Reader

open Signer (Certificate packTuples)

structure Fits (c : Certificate) : Prop where
  typeName : c.typeName.length < 2 ^ 32
  nonce : c.nonce.length < 2 ^ 32
  keyID : c.keyID.length < 2 ^ 32
  principals : (c.validPrincipals.flatMap writeLP).length < 2 ^ 32
  criticalOptions : (packTuples c.criticalOptions).length < 2 ^ 32
  extensions : (packTuples c.extensions).length < 2 ^ 32
  signatureKey : c.signatureKey.wire.length < 2 ^ 32

def certFieldsOf (c : Certificate) (raw : Bytes) : CertFields where
  nonce := c.nonce
  key := raw
  serial := c.serial.toNat
  certType := c.certType.toNat
  keyID := c.keyID
  principals := c.validPrincipals.flatMap writeLP
  validAfter := c.validAfter.toNat
  validBefore := c.validBefore.toNat
  criticalOptions := packTuples c.criticalOptions
  extensions := packTuples c.extensions
  reserved := []
  signatureKey := c.signatureKey.wire

theorem certFields_at {c : Certificate} {r : Reader} (hc : Fits c) (hkey : c.keyBytes = writeLP raw)
    (hraw : raw.length < 2 ^ 32) (h : r.At (writeLP c.nonce ++ (c.keyBytes ++ c.generic) ++ rest)) :
    ∃ r', r.certFields = some (certFieldsOf c raw, r') := by
  rw [hkey] at h
  simp only [Certificate.generic, List.append_assoc] at h
  obtain ⟨r1, h1, h⟩ := h.string hc.nonce
  obtain ⟨r2, h2, h⟩ := h.string hraw
  obtain ⟨r3, h3, h⟩ := h.u64
  obtain ⟨r4, h4, h⟩ := h.u32
  obtain ⟨r5, h5, h⟩ := h.string hc.keyID
  obtain ⟨r6, h6, h⟩ := h.string hc.principals
  obtain ⟨r7, h7, h⟩ := h.u64
  obtain ⟨r8, h8, h⟩ := h.u64
  obtain ⟨r9, h9, h⟩ := h.string hc.criticalOptions
  obtain ⟨r10, h10, h⟩ := h.string hc.extensions
  obtain ⟨r11, h11, h⟩ := h.string (by decide)
  obtain ⟨r12, h12, -⟩ := h.string hc.signatureKey
  refine ⟨r12, ?_⟩
  simp only [Reader.certFields, h1, h2, h3, h4, h5, h6, h7, h8, h9, h10, h11, h12, bind,
    Option.bind_some]
  rfl

end Grantd.Install
