import Grantd.Signer.Ops

/-!
# The visiting side

go/agent: the envelope a visitor builds from a capability, and the checks that
bind what the coordination service returns to the host in the capability URL.
The service is not trusted, so `verifyHostRecord` and `verifyRedemption` are
all that stands between it and the visitor.
-/

namespace Grantd.Agent

open Base Protocol Signer

-- ---------------------------------------------------------------------------
-- What x/crypto/ssh provides
-- ---------------------------------------------------------------------------

/-- `ssh.ParseAuthorizedKey` reads plain keys and certificates. -/
inductive AuthorizedKey
  | key (k : SSHPublicKey)
  | certificate (cert : Certificate)
  deriving DecidableEq, Repr

/-- The library functions a visitor calls. `checkCert` is `CheckCert` for a
principal, with the clock stopped at the given second. -/
structure Library where
  crypto : Crypto
  parsePublicKey : Bytes → Option SSHPublicKey
  parseAuthorizedKey : GoString → Option AuthorizedKey
  checkCert (principal : GoString) (cert : Certificate) (now : Int64) : Bool

variable (L : Library)

-- ---------------------------------------------------------------------------
-- The envelope
-- ---------------------------------------------------------------------------

structure Identity where
  publicKey : Bytes
  sign : Bytes → Bytes
  id : GoString

structure Capability where
  origin : GoString
  hostID : GoString
  grantID : GoString
  secret : Bytes
  deriving DecidableEq, Repr

/-- A throwaway keypair for one visit, by its public half. -/
structure EphemeralSSHKey where
  publicSSH : SSHPublicKey
  line : GoString
  deriving DecidableEq, Repr

def newEphemeralSSHKey (publicSSH : SSHPublicKey) : EphemeralSSHKey :=
  ⟨publicSSH, publicSSHLine publicSSH⟩

/-- `BuildRedemption`; `nonce` is drawn. -/
def buildRedemption (ident : Identity) (cap : Capability) (sshLine : GoString) (now : Time)
    (nonce : Bytes) : Except CanonicalError RedemptionRequest := do
  let p : RedemptionPayload :=
    { version, hostID := cap.hostID, grantID := cap.grantID, agentID := ident.id
      agentPublicKey := ident.publicKey, sshPublicKey := sshLine, timestamp := now.unix, nonce }
  let sigMsg ← p.canonicalSig
  let macMsg ← p.canonicalMAC
  pure { payload := p, agentSignature := ident.sign sigMsg
         proof := L.crypto.hmacSHA256 cap.secret macMsg }

-- ---------------------------------------------------------------------------
-- The host record
-- ---------------------------------------------------------------------------

/-- The body of `GET /v1/hosts/:host_id`. -/
structure HostPublicRecord where
  hostID : GoString
  registration : HostRegistration
  signature : Bytes
  deriving DecidableEq, Repr

structure VerifiedHost where
  registration : HostRegistration
  caKey : SSHPublicKey
  hostKey : SSHPublicKey
  deriving DecidableEq, Repr

inductive Mismatch
  | version (v : UInt64)
  | hostID
  | identity (e : IDError)
  deriving DecidableEq, Repr

inductive HostRecordError
  | mismatch (cause : Mismatch)
  | unencodable (e : CanonicalError)
  | signature
  | invalid (e : ValidationError)
  | caKey (e : SSHKeyError)
  | noKey (e : SSHKeyError)
  deriving DecidableEq, Repr

def verifyHostRecord (hostID : GoString) (record : HostPublicRecord) :
    Except HostRecordError VerifiedHost := do
  let reg := record.registration
  ensure (reg.version == version) (.mismatch (.version reg.version))
  ensure (reg.hostID == hostID && record.hostID == hostID) (.mismatch .hostID)
  (checkHostID L.crypto hostID reg.identityPublicKey).mapError (.mismatch ∘ .identity)
  let msg ← reg.canonical.mapError .unencodable
  ensure (verify L.crypto reg.identityPublicKey msg record.signature) .signature
  (validateHostname reg.hostname).mapError .invalid
  (validateSSHUser reg.sshUser).mapError .invalid
  (validatePort reg.sshPort).mapError .invalid
  let caKey ← (parseSSHPublicKey L.parsePublicKey reg.sshCAPublicKey).mapError .caKey
  let hostKey ← (parseSSHPublicKey L.parsePublicKey reg.sshHostPublicKey).mapError .noKey
  pure { registration := reg, caKey, hostKey }

def knownHostsLine (hostID : GoString) (host : VerifiedHost) : GoString :=
  hostID ++ lit " " ++ host.registration.sshHostPublicKey ++ lit "\n"

-- ---------------------------------------------------------------------------
-- The response
-- ---------------------------------------------------------------------------

inductive Unacceptable
  | unreadable
  | notCertificate
  | notUser
  | otherKey
  | principals (got : List GoString) (want : GoString)
  | otherCA
  | refused
  deriving DecidableEq, Repr

inductive ResponseError
  | mismatch
  | certificate (cause : Unacceptable)
  deriving DecidableEq, Repr

/-- `VerifyRedemption`. A certificate that was parsed always names the key that
signed it. -/
def verifyRedemption (host : VerifiedHost) (resp : RedemptionResponse) (key : EphemeralSSHKey)
    (now : Time) : Except ResponseError Certificate := do
  let reg := host.registration
  ensure (!(resp.hostname != reg.hostname || resp.port != reg.sshPort || resp.user != reg.sshUser))
    .mismatch
  match L.parseAuthorizedKey resp.certificate with
  | none => throw (.certificate .unreadable)
  | some (.key _) => throw (.certificate .notCertificate)
  | some (.certificate cert) =>
    ensure (cert.certType == userCert) (.certificate .notUser)
    ensure (cert.key.wire == key.publicSSH.wire) (.certificate .otherKey)
    ensure (cert.validPrincipals == [reg.sshUser])
      (.certificate (.principals cert.validPrincipals reg.sshUser))
    ensure (cert.signatureKey.wire == host.caKey.wire) (.certificate .otherCA)
    ensure (L.checkCert reg.sshUser cert now.unix) (.certificate .refused)
    pure cert

-- ---------------------------------------------------------------------------
-- What acceptance means
-- ---------------------------------------------------------------------------

variable {L}

theorem checkHostID_eq_ok {id : GoString} :
    checkHostID C id pub = .ok () ↔ Protocol.hostID C pub = .ok id := by
  simp only [checkHostID, checkID, Protocol.hostID, bind_eq_ok, ensure_eq_ok, beq_iff_eq]
  constructor
  · rintro ⟨_, h, rfl⟩
    exact h
  · exact fun h => ⟨id, h, rfl⟩

structure Verified (L : Library) (id : GoString) (record : HostPublicRecord)
    (host : VerifiedHost) : Prop where
  registration : host.registration = record.registration
  version : host.registration.version = Protocol.version
  hostID : host.registration.hostID = id
  recordID : record.hostID = id
  identity : Protocol.hostID L.crypto host.registration.identityPublicKey = .ok id
  signature : ∃ msg, host.registration.canonical = .ok msg ∧
    verify L.crypto host.registration.identityPublicKey msg record.signature = true
  hostname : validateHostname host.registration.hostname = .ok ()
  sshUser : validateSSHUser host.registration.sshUser = .ok ()
  sshPort : validatePort host.registration.sshPort = .ok ()
  caKey : parseSSHPublicKey L.parsePublicKey host.registration.sshCAPublicKey = .ok host.caKey
  hostKey : parseSSHPublicKey L.parsePublicKey host.registration.sshHostPublicKey = .ok host.hostKey

theorem verifyHostRecord_eq_ok {hostID : GoString} :
    verifyHostRecord L hostID record = .ok host ↔ Verified L hostID record host := by
  simp only [verifyHostRecord, bind_eq_ok, ensure_eq_ok, pure_eq_ok, mapError_eq_ok, beq_iff_eq,
    Bool.and_eq_true]
  constructor
  · rintro ⟨_, hv, _, ⟨hid, hrec⟩, _, hident, msg, hmsg, _, hsig, _, hname, _, huser, _, hport, ca,
      hca, key, hkey, rfl⟩
    exact ⟨rfl, hv, hid, hrec, checkHostID_eq_ok.mp hident, ⟨msg, hmsg, hsig⟩, hname, huser, hport,
      hca, hkey⟩
  · rintro ⟨hreg, hv, hid, hrec, hident, ⟨msg, hmsg, hsig⟩, hname, huser, hport, hca, hkey⟩
    obtain ⟨reg, ca, key⟩ := host
    subst hreg
    exact ⟨(), hv, (), ⟨hid, hrec⟩, (), checkHostID_eq_ok.mpr hident, msg, hmsg, (), hsig, (),
      hname, (), huser, (), hport, ca, hca, key, hkey, rfl⟩

structure Accepted (L : Library) (host : VerifiedHost) (resp : RedemptionResponse)
    (key : EphemeralSSHKey) (now : Time) (cert : Certificate) : Prop where
  hostname : resp.hostname = host.registration.hostname
  port : resp.port = host.registration.sshPort
  user : resp.user = host.registration.sshUser
  parsed : L.parseAuthorizedKey resp.certificate = some (.certificate cert)
  certType : cert.certType = userCert
  key : cert.key.wire = key.publicSSH.wire
  principals : cert.validPrincipals = [host.registration.sshUser]
  signatureKey : cert.signatureKey.wire = host.caKey.wire
  checked : L.checkCert host.registration.sshUser cert now.unix = true

theorem verifyRedemption_eq_ok :
    verifyRedemption L host resp key now = .ok cert ↔ Accepted L host resp key now cert := by
  simp only [verifyRedemption, bind_eq_ok, ensure_eq_ok, Bool.not_eq_true', Bool.or_eq_false_iff,
    bne_eq_false_iff_eq]
  constructor
  · rintro ⟨_, ⟨⟨hname, hport⟩, huser⟩, h⟩
    split at h
    · cases h
    · cases h
    · rename_i cert' hparsed
      simp only [bind_eq_ok, ensure_eq_ok, pure_eq_ok, beq_iff_eq] at h
      obtain ⟨_, htype, _, hkey, _, hprincipals, _, hca, _, hcheck, rfl⟩ := h
      exact ⟨hname, hport, huser, hparsed, htype, hkey, hprincipals, hca, hcheck⟩
  · rintro ⟨hname, hport, huser, hparsed, htype, hkey, hprincipals, hca, hcheck⟩
    refine ⟨(), ⟨⟨hname, hport⟩, huser⟩, ?_⟩
    simp only [hparsed, bind_eq_ok, ensure_eq_ok, pure_eq_ok, beq_iff_eq]
    exact ⟨(), htype, (), hkey, (), hprincipals, (), hca, (), hcheck, trivial⟩

end Grantd.Agent
