import Grantd.Base.Time
import Grantd.Protocol.SshKey

/-!
# User certificates

go/internal/sshcert/sshcert.go. The wire form of a certificate and the CA
signature belong to x/crypto/ssh; a `CA` says which key it is and what it
signs.
-/

namespace Grantd.Signer

open Base Protocol

structure Certificate where
  nonce : Bytes
  key : SSHPublicKey
  serial : UInt64
  certType : UInt32
  keyID : GoString
  validPrincipals : List GoString
  validAfter : UInt64
  validBefore : UInt64
  criticalOptions : List (GoString × GoString)
  extensions : List (GoString × GoString)
  signatureKey : SSHPublicKey
  signature : Bytes
  deriving DecidableEq, Repr

def userCert : UInt32 := 1

/-- The host's SSH CA key. `sign` reads everything but the signature. -/
structure CA where
  publicKey : SSHPublicKey
  sign : Certificate → Bytes

/-- How far before now a certificate becomes valid, in seconds. -/
def clockSkewBackdate : Int64 := 30

structure CertRequest where
  publicKey : SSHPublicKey
  principal : GoString
  grantID : GoString
  agentID : GoString
  serial : UInt64
  validFrom : Time
  validTo : Time
  deriving DecidableEq, Repr

inductive IssueError
  | missingPrincipal
  | rootPrincipal
  | emptyWindow
  deriving DecidableEq, Repr

def keyID (grantID agentID : GoString) : GoString :=
  lit "grantd:" ++ grantID ++ lit ":" ++ agentID

def CertRequest.unsigned (req : CertRequest) (ca : CA) (nonce : Bytes) : Certificate where
  nonce
  key := req.publicKey
  serial := req.serial
  certType := userCert
  keyID := keyID req.grantID req.agentID
  validPrincipals := [req.principal]
  validAfter := req.validFrom.unix.toUInt64
  validBefore := req.validTo.unix.toUInt64
  criticalOptions := []
  extensions := [(lit "permit-pty", []), (lit "permit-user-rc", [])]
  signatureKey := ca.publicKey
  signature := []

/-- `Issue`, with the nonce that `SignCert` draws. -/
def issue (ca : CA) (nonce : Bytes) (req : CertRequest) : Except IssueError Certificate := do
  ensure (req.principal != []) .missingPrincipal
  ensure (req.principal != root) .rootPrincipal
  ensure (req.validTo.after req.validFrom) .emptyWindow
  let cert := req.unsigned ca nonce
  pure { cert with signature := ca.sign cert }

theorem issue_eq_ok (ca : CA) (nonce : Bytes) (req : CertRequest) (cert : Certificate) :
    issue ca nonce req = .ok cert ↔
      req.principal ≠ [] ∧ req.principal ≠ root ∧ req.validTo.after req.validFrom = true ∧
      cert = { req.unsigned ca nonce with signature := ca.sign (req.unsigned ca nonce) } := by
  simp only [issue, bind_eq_ok, ensure_eq_ok, pure_eq_ok, bne_iff_ne]
  constructor
  · rintro ⟨_, hne, _, hroot, _, hafter, rfl⟩
    exact ⟨hne, hroot, hafter, rfl⟩
  · rintro ⟨hne, hroot, hafter, rfl⟩
    exact ⟨(), hne, (), hroot, (), hafter, rfl⟩

structure Certificate.Of (cert : Certificate) (ca : CA) (req : CertRequest) : Prop where
  key : cert.key = req.publicKey
  serial : cert.serial = req.serial
  certType : cert.certType = userCert
  keyID : cert.keyID = Signer.keyID req.grantID req.agentID
  validPrincipals : cert.validPrincipals = [req.principal]
  validAfter : cert.validAfter = req.validFrom.unix.toUInt64
  validBefore : cert.validBefore = req.validTo.unix.toUInt64
  signatureKey : cert.signatureKey = ca.publicKey

theorem issue_of (h : issue ca nonce req = .ok cert) : cert.Of ca req := by
  obtain ⟨-, -, -, rfl⟩ := (issue_eq_ok ..).mp h
  exact ⟨rfl, rfl, rfl, rfl, rfl, rfl, rfl, rfl⟩

end Grantd.Signer
