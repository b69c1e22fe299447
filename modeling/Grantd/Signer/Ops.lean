import Grantd.Signer.SshCert
import Grantd.Signer.Store

/-!
# The signer's operations

go/signer/signer.go and go/signer/redeem.go. Each operation is cut where it
touches the database, so that its parts can be run one after the other here
and interleaved elsewhere. Clock readings and random draws are arguments.
-/

namespace Grantd

open Base Protocol Signer

/-- The signer's keys and configuration, with the x/crypto functions it
calls. -/
structure Signer where
  crypto : Crypto
  parsePublicKey : Bytes → Option SSHPublicKey
  marshal : Certificate → GoString
  identity : Bytes
  sign : Bytes → Bytes
  ca : CA
  origin : GoString

namespace Signer

def maxActiveGrants : Nat := 32

def nonceRetention : Int64 := 4 * skewRedemption

-- ---------------------------------------------------------------------------
-- Enrollment
-- ---------------------------------------------------------------------------

inductive EnrollError
  | invalid (e : ValidationError)
  | hostKeyRequired
  | hostKey (e : SSHKeyError)
  | identity (e : IDError)
  deriving DecidableEq, Repr

def enrollment (S : Signer) (now : Int64) (sshUser hostname : GoString) (port : UInt64)
    (sshHostKeyLine : GoString) : Except EnrollError Host := do
  (validateSSHUser sshUser).mapError .invalid
  (validateHostname hostname).mapError .invalid
  (validatePort port).mapError .invalid
  ensure (sshHostKeyLine != []) .hostKeyRequired
  let _ ← (parseSSHPublicKey S.parsePublicKey sshHostKeyLine).mapError .hostKey
  let hostID ← (hostID S.crypto S.identity).mapError .identity
  pure { hostID, sshUser, hostname, sshPort := port, createdAt := now,
         sshHostPublicKey := sshHostKeyLine }

def enroll (S : Signer) (now : Int64) (sshUser hostname : GoString) (port : UInt64)
    (sshHostKeyLine : GoString) (s : Store) : Except EnrollError Unit × Store :=
  match S.enrollment now sshUser hostname port sshHostKeyLine with
  | .error e => (.error e, s)
  | .ok h => (.ok (), s.setHost h)

theorem enroll_frame (S : Signer) (now : Int64) (sshUser hostname : GoString) (port : UInt64)
    (line : GoString) (s : Store) : ∃ host,
    (S.enroll now sshUser hostname port line s).2 = { s with host } := by
  unfold enroll
  split
  · exact ⟨s.host, rfl⟩
  · unfold Store.setHost
    split <;> exact ⟨_, rfl⟩

-- ---------------------------------------------------------------------------
-- Grants
-- ---------------------------------------------------------------------------

inductive CreateError
  | noOrigin
  | window (e : ValidationError)
  | noHost
  | tooManyGrants
  | store
  | canonical (e : CanonicalError)
  deriving DecidableEq, Repr

def validOrigin (origin : GoString) : Bool :=
  (lit "https://").isPrefixOf origin || (lit "http://").isPrefixOf origin

/-- The checks before the first query; the result is `expires_at`. -/
def createWindow (S : Signer) (now ttlSeconds : Int64) : Except CreateError Int64 := do
  ensure (validOrigin S.origin) .noOrigin
  let ttl := if ttlSeconds = 0 then defaultGrantTTL else ttlSeconds
  (validateGrantWindow now (now + ttl)).mapError .window
  pure (now + ttl)

structure NewGrant where
  grantID : GoString
  expiresAt : Int64
  capabilityURL : GoString
  publish : Protocol.Grant
  signature : Bytes
  deriving DecidableEq, Repr

/-- The signed public metadata, built after the row is stored. -/
def newGrant (S : Signer) (h : Host) (grantID : GoString) (secret : Bytes)
    (now expiresAt : Int64) : Except CreateError NewGrant := do
  let publish : Protocol.Grant :=
    { version, hostID := h.hostID, grantID, sshUser := h.sshUser, createdAt := now, expiresAt }
  let msg ← publish.canonical.mapError .canonical
  pure { grantID, expiresAt, publish, signature := S.sign msg
         capabilityURL := capabilityURL S.origin h.hostID grantID secret }

/-- `CreateGrant`; `raw` and `secret` are the bytes it draws. -/
def createGrant (S : Signer) (now ttlSeconds : Int64) (raw secret : Bytes) (s : Store) :
    Except CreateError NewGrant × Store :=
  match S.createWindow now ttlSeconds with
  | .error e => (.error e, s)
  | .ok expiresAt =>
    match s.host with
    | none => (.error .noHost, s)
    | some h =>
      if s.activeGrantCount now ≥ maxActiveGrants then (.error .tooManyGrants, s)
      else
        match s.createGrant (newGrantID raw) secret h.sshUser now expiresAt with
        | none => (.error .store, s)
        | some s => (S.newGrant h (newGrantID raw) secret now expiresAt, s)

inductive GrantError
  | malformedID
  | notFound
  deriving DecidableEq, Repr

/-- `RevokeGrant`. An update that affects no row looks again, to tell a
missing grant from a revoked one. -/
def revokeGrant (now : Int64) (id : GoString) (s : Store) : Except GrantError Unit × Store :=
  if validGrantID id then
    (if (s.grants.get? id).isNone then .error .notFound else .ok (), s.revoke id now)
  else (.error .malformedID, s)

def markPublished (now : Int64) (id : GoString) (s : Store) : Except GrantError Unit × Store :=
  if validGrantID id then (.ok (), s.markPublished id now) else (.error .malformedID, s)

def purgeExpired (now retain : Int64) (s : Store) : Store :=
  (s.purgeGrants now retain).pruneNonces now retain

-- ---------------------------------------------------------------------------
-- Redemption
-- ---------------------------------------------------------------------------

inductive ErrCode
  | badRequest
  | unsupportedVersion
  | idMismatch
  | badSignature
  | staleTimestamp
  | replayedNonce
  | grantNotFound
  | grantExpired
  | grantRevoked
  | alreadyRedeemed
  | badProof
  | internal
  deriving DecidableEq, Repr

/-- A refusal's text; `wrapped` texts print the error they carry. -/
inductive RefusalText
  | text (s : GoString)
  | canonical (e : CanonicalError)
  | sshKey (e : SSHKeyError)
  deriving DecidableEq, Repr

inductive RedeemError
  | refused (code : ErrCode) (message : RefusalText)
  | canonical (e : CanonicalError)
  | issue (e : IssueError)
  | store
  deriving DecidableEq, Repr

def redeemErr (code : ErrCode) (message : String) :
    RedeemError := .refused code (.text (lit message))

structure RedemptionRequest where
  payload : RedemptionPayload
  agentSignature : Bytes
  proof : Bytes
  deriving DecidableEq, Repr

structure RedemptionResponse where
  hostname : GoString
  port : UInt64
  user : GoString
  certificate : GoString
  serial : UInt64
  keyID : GoString
  validBefore : Int64
  deriving DecidableEq, Repr

def proof (S : Signer) (p : RedemptionPayload) (secret : Bytes) :
    Except CanonicalError Bytes := do
  let msg ← p.canonicalMAC
  pure (S.crypto.hmacSHA256 secret msg)

def verifyProof (S : Signer) (p : RedemptionPayload) (secret proof : Bytes) :
    Except CanonicalError Bool := do
  let want ← S.proof p secret
  pure (want == proof)

def checkVersion (p : RedemptionPayload) : Except RedeemError Unit :=
  ensure (p.version == version) (redeemErr .unsupportedVersion
    ("protocol version " ++ toString p.version ++ " is not supported"))

/-- The checks that need no write, on the host row that was read. -/
def checkRequest (S : Signer) (host : Option Host) (now : Int64) (req : RedemptionRequest) :
    Except RedeemError (Host × SSHPublicKey) := do
  let p := req.payload
  match host with
  | none => throw (redeemErr .internal "host is not enrolled")
  | some h =>
    ensure (p.hostID == h.hostID)
      (redeemErr .idMismatch "redemption is addressed to a different host")
    ensure (validGrantID p.grantID) (redeemErr .badRequest "malformed grant id")
    ensure (withinSkew now p.timestamp skewRedemption)
      (redeemErr .staleTimestamp "timestamp is outside the 120s window")
    ensure (p.nonce.length == nonceLen) (redeemErr .badRequest "nonce must be 16 bytes")
    ensure (p.agentPublicKey.length == publicKeySize)
      (redeemErr .badRequest "agent public key must be 32 bytes")
    (checkAgentID S.crypto p.agentID p.agentPublicKey).mapError fun _ =>
      redeemErr .idMismatch "agent_id does not match agent_public_key"
    let sigMsg ← p.canonicalSig.mapError fun e => .refused .badRequest (.canonical e)
    ensure (verify S.crypto p.agentPublicKey sigMsg req.agentSignature)
      (redeemErr .badSignature "agent signature does not verify")
    let key ← (parseSSHPublicKey S.parsePublicKey p.sshPublicKey).mapError fun e =>
      .refused .badRequest (.sshKey e)
    pure (h, key)

def redeemScope : GoString := lit "redeem"

structure Claim where
  sshUser : GoString
  expiresAt : Int64
  deriving DecidableEq, Repr

/-- The `switch claim.Status`. -/
def claimed : Store.ClaimResult → Except RedeemError Claim
  | .ok sshUser expiresAt => .ok ⟨sshUser, expiresAt⟩
  | .notFound => .error (redeemErr .grantNotFound "no such grant")
  | .revoked => .error (redeemErr .grantRevoked "grant was revoked")
  | .expired => .error (redeemErr .grantExpired "grant has expired")
  | .alreadyRedeemed => .error (redeemErr .alreadyRedeemed "grant has already been redeemed")
  | .badProof => .error (redeemErr .badProof "redemption proof does not verify")

structure Draw where
  serial : UInt64
  nonce : Bytes
  deriving DecidableEq, Repr

def certRequest (now : Time) (p : RedemptionPayload) (key : SSHPublicKey) (claim : Claim)
    (serial : UInt64) : CertRequest where
  publicKey := key
  principal := claim.sshUser
  grantID := p.grantID
  agentID := p.agentID
  serial
  validFrom := now.addSeconds (-clockSkewBackdate)
  validTo := .ofUnix claim.expiresAt

def certificateRow (S : Signer) (now : Time) (p : RedemptionPayload) (key : SSHPublicKey)
    (claim : Claim) (cert : Certificate) : CertificateRow where
  serial := cert.serial.toInt64
  grantID := p.grantID
  agentID := p.agentID
  keyFP := sshKeyFingerprint S.crypto key
  certificate := S.marshal cert
  validAfter := (now.addSeconds (-clockSkewBackdate)).unix
  validBefore := claim.expiresAt
  createdAt := now.unix

def response (S : Signer) (h : Host) (claim : Claim) (cert : Certificate) :
    RedemptionResponse where
  hostname := h.hostname
  port := h.sshPort
  user := claim.sshUser
  certificate := S.marshal cert
  serial := cert.serial
  keyID := cert.keyID
  validBefore := claim.expiresAt

/-- The transaction `Redeem` runs, with the proof check inside it. -/
def claim (S : Signer) (now : Int64) (req : RedemptionRequest) (key : SSHPublicKey)
    (s : Store) : Except CanonicalError (Store.ClaimResult × Store) :=
  s.claimGrant req.payload.grantID now req.payload.agentID (sshKeyFingerprint S.crypto key)
    fun secret => S.verifyProof req.payload secret req.proof

/-- `Redeem`, all of its steps in a row. -/
def redeem (S : Signer) (now : Time) (draw : Draw) (req : RedemptionRequest) (s : Store) :
    Except RedeemError RedemptionResponse × Store :=
  let p := req.payload
  match do checkVersion p; S.checkRequest s.host now.unix req with
  | .error e => (.error e, s)
  | .ok (h, key) =>
    let s := s.pruneNonces now.unix nonceRetention
    match s.insertNonce redeemScope p.nonce now.unix with
    | none => (.error (redeemErr .replayedNonce "nonce has already been used"), s)
    | some s =>
      match S.claim now.unix req key s with
      | .error e => (.error (.canonical e), s)
      | .ok (result, s) =>
        match claimed result with
        | .error e => (.error e, s)
        | .ok claim =>
          match issue S.ca draw.nonce (certRequest now p key claim draw.serial) with
          | .error e => (.error (.issue e), s)
          | .ok cert =>
            match s.recordCertificate (S.certificateRow now p key claim cert) with
            | none => (.error .store, s)
            | some s => (.ok (S.response h claim cert), s)

-- ---------------------------------------------------------------------------
-- A deployment with real keys, to evaluate on
-- ---------------------------------------------------------------------------

def nibble (c : UInt8) : UInt8 := if c < 0x61 then c - 0x30 else c - 0x57

def hexBytes : GoString → Bytes
  | a :: b :: rest => (nibble a * 16 + nibble b) :: hexBytes rest
  | _ => []

def hex (s : String) : Bytes := hexBytes (lit s)

namespace Sample

def identity : Bytes := hex "8a88e3dd7409f195fd52db2d3cba5d72ca6709bf1d94121bf3748801b40f6f5c"
def agentKey : Bytes := hex "8139770ea87d175f56a35466c34c7ecccb8d8a91b4ee37a25df60f5b8fc9b394"
def agentID : GoString := lit "a_ni4ahvpqlgicuhdnv66jxjdssijppsvm"

def ed25519 (key : Bytes) : SSHPublicKey := ⟨keyAlgoED25519, ed25519Wire key⟩

def visitorKey : SSHPublicKey :=
  ed25519 (hex "ed4928c628d1c2c6eae90338905995612959273a5c63f93636c14614ac8737d1")
def hostKey : SSHPublicKey :=
  ed25519 (hex "ca93ac1705187071d67b83c7ff0efe8108e8ec4530575d7726879333dbdabe7c")
def caKey : SSHPublicKey :=
  ed25519 (hex "6e7a1cdd29b0b78fd13af4c5598feff4ef2a97166e3ca6f2e4fbfccd80505bf1")

def sha256 (b : Bytes) : Bytes :=
  if b = identity then hex "34750f98bd59fcfc946da45aaabe933be154a4b5094e1c4abf42866505f3c97e"
  else if b = agentKey then hex "6a3803d5f059902a1c6dafbc9ba4729212f7caac08634cc3ae76b27529f03827"
  else if b = visitorKey.wire then
    hex "cdbbff9d4ee265d3b47c1d036a5308ef474febfc850fcb1cb57bef5b8f8ea246"
  else List.replicate 32 0

/-- The digests are right on the keys above; `mac` is the HMAC of the one
redemption that is made, and its signature is good. -/
def crypto (mac : Bytes) : Crypto where
  sha256 := sha256
  hmacSHA256 _ _ := mac
  ed25519Verify _ _ _ := true
  length_sha256 b := by
    unfold sha256
    split
    · decide
    · split
      · decide
      · split
        · decide
        · simp

def parsePublicKey (blob : Bytes) : Option SSHPublicKey :=
  let key := ed25519 (blob.drop 19)
  if key.wire = blob ∧ blob.length = 51 then some key else none

/-- The identity key's signature on the one grant that is published. -/
def grantSignature : Bytes :=
  hex "d948c5b96657eb2d81adf6ecd15ced2774676b02620965dc1f1e6b0921d1ddc5" ++
    hex "4d0e48a2ffaae00ae332d332d42b215029c03a884baa9d1470e2432b87f77000"

/-- `line` is the certificate that is issued and `signature` the CA's on it. -/
def signer (mac signature : Bytes) (line : GoString) : Signer where
  crypto := crypto mac
  parsePublicKey := parsePublicKey
  marshal _ := line
  identity := identity
  sign _ := grantSignature
  ca := ⟨caKey, fun _ => signature⟩
  origin := lit "https://grantd.example"

def hostID : GoString := lit "h_gr2q7gf5lh6pzfdnurnkvputhpqvjjfv"
def grantID : GoString := lit "g_aaaaaaaaaaaaaaaa"
def user : GoString := lit "visitor"
def secret : Bytes := List.replicate 32 9
def draw : Draw := ⟨9223372036854775813, List.replicate 32 6⟩

def payload (timestamp : Int64) : RedemptionPayload where
  version := version
  hostID := hostID
  grantID := grantID
  agentID := agentID
  agentPublicKey := agentKey
  sshPublicKey := publicSSHLine visitorKey
  timestamp
  nonce := [0, 1, 2, 3, 4, 5, 6, 7, 8, 9, 10, 11, 12, 13, 14, 15]

/-- One redemption in November 2023, on a clock the host and the visitor
share. -/
def now : Time := .ofUnix 1700000000

def proof : Bytes := hex "b78f4a084b92399d880738dc1a7835f224ed1de9f51e2223a8ea64f4238e3360"

def request : RedemptionRequest where
  payload := payload 1700000000
  agentSignature := hex "77f227eba94280418286c4d1f79ff1d09007105eaff0d38ef95ccc3e7b0924e8" ++
    hex "cd7437eccdcc49852330dc64241016a4b47c2fa9c054f82b3c5c26b1c42e8607"
  proof := proof

def certificateLine : GoString :=
  lit "ssh-ed25519-cert-v01@openssh.com AAAAIHNzaC1lZDI1NTE5LWNlcnQtdjAxQG9wZW5zc2guY29tAAA" ++
    lit "AIAYGBgYGBgYGBgYGBgYGBgYGBgYGBgYGBgYGBgYGBgYGAAAAIO1JKMYo0cLG6ukDOJBZlWEpWSc6XGP5Njb" ++
    lit "BRhSshzfRgAAAAAAAAAUAAAABAAAAPGdyYW50ZDpnX2FhYWFhYWFhYWFhYWFhYWE6YV9uaTRhaHZwcWxnaWN" ++
    lit "1aGRudjY2anhqZHNzaWpwcHN2bQAAAAsAAAAHdmlzaXRvcgAAAABlU/DiAAAAAGVT+AgAAAAAAAAAKAAAAAp" ++
    lit "wZXJtaXQtcHR5AAAAAAAAAA5wZXJtaXQtdXNlci1yYwAAAAAAAAAAAAAAMwAAAAtzc2gtZWQyNTUxOQAAACB" ++
    lit "uehzdKbC3j9E69MVZj+/07yqXFm48pvLk+/zNgFBb8QAAAFMAAAALc3NoLWVkMjU1MTkAAABAFg0AHQ5IYfA" ++
    lit "BbfrP/PVCWo8e1YoZLltQSg7puP8ZWqW3j4hRgeVtkNgtFr9kCEX6wwhi5C9xsLSqOcgFcKLpBg=="

def sample : Signer :=
  signer proof (hex "160d001d0e4861f0016dfacffcf5425a8f1ed58a192e5b504a0ee9b8ff195aa5" ++
    hex "b78f885181e56d90d82d16bf640845fac30862e42f71b0b4aa39c80570a2e906") certificateLine

end Sample

end Signer

end Grantd
