import Grantd.Signer.Ops

/-!
# The lifetime socket

go/signer/api/http.go: what the signer reports of one grant to the warden. The
handler reads the grant and the certificate in two statements, and another
step can come between them.
-/

namespace Grantd.Signer

open Base Protocol

structure LifetimeGrant where
  id : GoString
  sshUser : GoString
  expiresAt : Int64
  redeemedAt : Option Int64
  revokedAt : Option Int64
  certificateSerial : GoString
  deriving DecidableEq, Repr

/-- `strconv.FormatUint(n, 10)`. -/
def formatUint (n : UInt64) : GoString :=
  (Nat.toDigits 10 n.toNat).map fun c => UInt8.ofNat c.toNat

/-- `lifetimeGrant` up to its second statement. -/
def lifetimeView (s : Store) (id : GoString) : Except ErrCode LifetimeGrant := do
  ensure (validGrantID id) .badRequest
  match s.grants.get? id with
  | none => throw .grantNotFound
  | some v => pure {
      id := v.id
      sshUser := v.sshUser
      expiresAt := v.expiresAt
      redeemedAt := v.redeemedAt
      revokedAt := v.revokedAt
      certificateSerial := [] }

def withSerial (s : Store) (out : LifetimeGrant) : LifetimeGrant :=
  match s.certificateSerial out.id with
  | none => out
  | some serial => { out with certificateSerial := formatUint serial }

end Grantd.Signer
