import Grantd.Service.Js

/-!
# Message schemas of the service

cloudflare/src/protocol.ts, cloudflare/src/crypto/ids.ts and
cloudflare/src/errors.ts. `crypto.subtle` is a parameter.
-/

namespace Grantd.Service

open Base

inductive ErrorCode
  | badRequest
  | unsupportedVersion
  | idMismatch
  | badSignature
  | staleTimestamp
  | replayedNonce
  | hostNotFound
  | grantNotFound
  | agentNotFound
  | challengeNotFound
  | challengeConsumed
  | badAnswer
  | hostOffline
  | hostTimeout
  | grantExpired
  | rateLimited
  | tooManyGrants
  | internal
  deriving DecidableEq, Repr

def statusFor : ErrorCode → Nat
  | .badRequest | .unsupportedVersion | .idMismatch => 400
  | .badSignature | .staleTimestamp | .replayedNonce | .badAnswer => 401
  | .hostNotFound | .grantNotFound | .agentNotFound | .challengeNotFound => 404
  | .challengeConsumed => 409
  | .grantExpired => 410
  | .rateLimited | .tooManyGrants => 429
  | .internal => 500
  | .hostOffline => 503
  | .hostTimeout => 504

inductive Response
  | error (code : ErrorCode) (message : JsString) (status : Nat)
  | json (body : Json) (status : Nat)
  | webSocket

def Response.code : Response → Option ErrorCode
  | .error code _ _ => some code
  | _ => none

def errorResponse (code : ErrorCode) (message : String) : Response :=
  .error code (js message) (statusFor code)

/-- What a handler can throw: a `ParseError`, or an error that `fetch` hides. -/
inductive Thrown
  | parse (code : ErrorCode) (message : JsString)
  | other
  deriving DecidableEq, Repr

def bad (message : JsString) : Thrown := .parse .badRequest message

/-- `crypto.subtle`, by what the source asks of it. A key that does not import
counts as a signature that does not verify. -/
structure Subtle where
  sha256 : Bytes → Bytes
  ed25519Verify (pub msg sig : Bytes) : Bool

-- ---------------------------------------------------------------------------
-- crypto/ids.ts
-- ---------------------------------------------------------------------------

def protocolVersion : Int := 1

def isB32 (c : UInt16) : Bool := (0x61 ≤ c && c ≤ 0x7A) || (0x32 ≤ c && c ≤ 0x37)

/-- The pattern `^tag[a-z2-7]{n}$`. -/
def idRe (tag : JsString) (n : Nat) (s : JsString) : Bool :=
  tag.isPrefixOf s && (s.drop tag.length).length == n && (s.drop tag.length).all isB32

def hostIDRe (s : JsString) : Bool := idRe (js "h_") 32 s
def agentIDRe (s : JsString) : Bool := idRe (js "a_") 32 s
def grantIDRe (s : JsString) : Bool := idRe (js "g_") 16 s

section
variable (C : Subtle)

def idMaterial (pub : Bytes) : Except Thrown Bytes := do
  ensure (pub.length == 32) .other
  pure ((C.sha256 pub).take 20)

def hostID (pub : Bytes) : Except Thrown JsString := do
  pure (js "h_" ++ base32Encode (← idMaterial C pub))

def agentID (pub : Bytes) : Except Thrown JsString := do
  pure (js "a_" ++ base32Encode (← idMaterial C pub))

def verifyEd25519 (pub message signature : Bytes) : Bool :=
  pub.length == 32 && signature.length == 64 && C.ed25519Verify pub message signature

end

-- ---------------------------------------------------------------------------
-- Reading fields
-- ---------------------------------------------------------------------------

def requireObject (v : Option Json) (what : JsString) : Except Thrown Record :=
  match v with
  | some (.obj o) => pure o
  | _ => throw (bad (what ++ js " must be an object"))

def str (o : Record) (key : JsString) (max : Nat) : Except Thrown JsString :=
  match o.get key with
  | some (.str v) => do
    ensure (v.length ≤ max) (bad (key ++ js " exceeds " ++ js (toString max) ++ js " bytes"))
    pure v
  | _ => throw (bad (key ++ js " must be a string"))

def int (o : Record) (key : JsString) : Except Thrown Int :=
  let err := bad (key ++ js " must be a non-negative integer")
  match o.get key with
  | some (.num (.integer v)) => do
    ensure (isSafeInteger (.integer v) && 0 ≤ v) err
    pure v
  | _ => throw err

def bytes (o : Record) (key : JsString) (exactLen : Nat) : Except Thrown Bytes :=
  match o.get key with
  | some (.str v) =>
    match b64uDecode v with
    | none => throw (bad (key ++ js " must be base64url without padding"))
    | some decoded => do
      ensure (decoded.length == exactLen)
        (bad (key ++ js " must be " ++ js (toString exactLen) ++ js " bytes"))
      pure decoded
  | _ => throw (bad (key ++ js " must be a base64url string"))

theorem str_eq_ok {o : Record} {key : JsString} :
    str o key bound = .ok v ↔ o.get key = some (.str v) ∧ v.length ≤ bound := by
  unfold str
  split
  · rename_i v' hv
    simp only [bind_eq_ok, ensure_eq_ok, pure_eq_ok, decide_eq_true_eq, hv, Option.some.injEq,
      Json.str.injEq]
    constructor
    · rintro ⟨_, hlen, rfl⟩
      exact ⟨rfl, hlen⟩
    · rintro ⟨rfl, hlen⟩
      exact ⟨(), hlen, rfl⟩
  · rename_i hno
    exact iff_of_false nofun fun ⟨hv, _⟩ => hno v hv

theorem int_eq_ok {o : Record} {key : JsString} :
    int o key = .ok z ↔
      o.get key = some (.num (.integer z)) ∧ isSafeInteger (.integer z) = true ∧ 0 ≤ z := by
  unfold int
  dsimp only
  split
  · rename_i z' hz
    simp only [bind_eq_ok, ensure_eq_ok, pure_eq_ok, Bool.and_eq_true, decide_eq_true_eq, hz,
      Option.some.injEq, Json.num.injEq, JsNumber.integer.injEq]
    constructor
    · rintro ⟨_, hsafe, rfl⟩
      exact ⟨rfl, hsafe⟩
    · rintro ⟨rfl, hsafe⟩
      exact ⟨(), hsafe, rfl⟩
  · rename_i hno
    exact iff_of_false nofun fun ⟨hz, _⟩ => hno z hz

theorem bytes_eq_ok {o : Record} {key : JsString} :
    bytes o key n = .ok b ↔
      ∃ s, o.get key = some (.str s) ∧ b64uDecode s = some b ∧ b.length = n := by
  unfold bytes
  split
  · rename_i s hs
    split
    · rename_i hnone
      refine iff_of_false nofun fun ⟨s', hs', hdec, _⟩ => ?_
      cases hs.symm.trans hs'
      cases hnone.symm.trans hdec
    · rename_i decoded hdec
      simp only [bind_eq_ok, ensure_eq_ok, pure_eq_ok, beq_iff_eq, hs, Option.some.injEq,
        Json.str.injEq]
      constructor
      · rintro ⟨_, hlen, rfl⟩
        exact ⟨s, rfl, hdec, hlen⟩
      · rintro ⟨_, rfl, hdec', hlen⟩
        cases hdec.symm.trans hdec'
        exact ⟨(), hlen, rfl⟩
  · rename_i hno
    exact iff_of_false nofun fun ⟨s, hs, _⟩ => hno s hs

def checkVersion (v : Int) : Except Thrown Unit :=
  ensure (v == protocolVersion)
    (.parse .unsupportedVersion
      (js "protocol version " ++ js (toString v) ++ js " is not supported"))

def parseSignature (raw : Record) : Except Thrown Bytes := bytes raw (js "signature") 64

-- ---------------------------------------------------------------------------
-- SSH public keys
-- ---------------------------------------------------------------------------

def sshEd25519 : String := "ssh-ed25519"

def getUint32 (b : Bytes) (offset : Nat) : Nat :=
  ((b.drop offset).take 4).foldl (fun n x => n * 256 + x.toNat) 0

def parseSshEd25519Line (line : JsString) : Except Thrown Bytes :=
  match line.splitOn 0x20 with
  | [kind, body] => do
    ensure (kind == js sshEd25519)
      (bad (js "ssh_public_key must be a two-field ssh-ed25519 authorized_keys line"))
    match b64StdDecode body with
    | none => throw (bad (js "ssh_public_key blob is not valid base64"))
    | some blob =>
      ensure (blob.length == 51) (bad (js "ssh_public_key blob has the wrong length"))
      -- The type is ASCII, so its decoded text is right exactly when its bytes are.
      ensure (getUint32 blob 0 == 11 && (blob.drop 4).take 11 == lit sshEd25519)
        (bad (js "ssh_public_key blob is not ssh-ed25519"))
      ensure (getUint32 blob 15 == 32) (bad (js "ssh_public_key blob has a bad key length"))
      pure blob
  | _ => throw (bad (js "ssh_public_key must be a two-field ssh-ed25519 authorized_keys line"))

def b64StdEncodeNoPad (bytes : Bytes) : JsString := dropPadding (btoa bytes)

def sshKeyFingerprint (C : Subtle) (line : JsString) : Except Thrown JsString := do
  pure (js "SHA256:" ++ b64StdEncodeNoPad (C.sha256 (← parseSshEd25519Line line)))

-- ---------------------------------------------------------------------------
-- Host registration
-- ---------------------------------------------------------------------------

def maxSshPubkeyBytes : Nat := 1024
def maxHostnameBytes : Nat := 253
def maxUsernameBytes : Nat := 32

structure HostRegistration where
  version : Int
  hostID : JsString
  identityPublicKey : Bytes
  sshCAPublicKey : JsString
  sshHostPublicKey : JsString
  hostname : JsString
  sshPort : Int
  sshUser : JsString
  timestamp : Int
  nonce : Bytes

def isUserStart (c : UInt16) : Bool := (0x61 ≤ c && c ≤ 0x7A) || c == 0x5F
def isUserChar (c : UInt16) : Bool := isUserStart c || (0x30 ≤ c && c ≤ 0x39) || c == 0x2D

/-- The pattern `^[a-z_][a-z0-9_-]{0,31}$`. -/
def sshUserRe : JsString → Bool
  | [] => false
  | c :: rest => isUserStart c && rest.length ≤ 31 && rest.all isUserChar

def parseHostRegistration (raw : Option Json) : Except Thrown HostRegistration := do
  let o ← requireObject raw (js "registration")
  let m : HostRegistration := {
    version := ← int o (js "version")
    hostID := ← str o (js "host_id") 64
    identityPublicKey := ← bytes o (js "identity_public_key") 32
    sshCAPublicKey := ← str o (js "ssh_ca_public_key") maxSshPubkeyBytes
    sshHostPublicKey := ← str o (js "ssh_host_public_key") maxSshPubkeyBytes
    hostname := ← str o (js "hostname") maxHostnameBytes
    sshPort := ← int o (js "ssh_port")
    sshUser := ← str o (js "ssh_user") maxUsernameBytes
    timestamp := ← int o (js "timestamp")
    nonce := ← bytes o (js "nonce") 16 }
  checkVersion m.version
  ensure (hostIDRe m.hostID) (bad (js "malformed host_id"))
  ensure (m.sshPort != 0 && m.sshPort ≤ 65535) (bad (js "ssh_port out of range"))
  ensure (m.sshUser != js "root") (bad (js "root may not be enrolled"))
  ensure (sshUserRe m.sshUser) (bad (js "malformed ssh_user"))
  ensure (parseSshEd25519Line m.sshHostPublicKey).isOk
    (bad (js "ssh_host_public_key must be a two-field ssh-ed25519 authorized_keys line"))
  pure m

def serializeHostRegistration (m : HostRegistration) : Record :=
  [(js "version", .num (.integer m.version)),
    (js "host_id", .str m.hostID),
    (js "identity_public_key", .str (b64uEncode m.identityPublicKey)),
    (js "ssh_ca_public_key", .str m.sshCAPublicKey),
    (js "ssh_host_public_key", .str m.sshHostPublicKey),
    (js "hostname", .str m.hostname),
    (js "ssh_port", .num (.integer m.sshPort)),
    (js "ssh_user", .str m.sshUser),
    (js "timestamp", .num (.integer m.timestamp)),
    (js "nonce", .str (b64uEncode m.nonce))]

def canonicalHostRegistration (m : HostRegistration) : Except CanonicalError Bytes :=
  encode (js "grantd/v1/host-register") [
    U "version" m.version,
    S "host_id" m.hostID,
    B "identity_public_key" m.identityPublicKey,
    S "ssh_ca_public_key" m.sshCAPublicKey,
    S "ssh_host_public_key" m.sshHostPublicKey,
    S "hostname" m.hostname,
    U "ssh_port" m.sshPort,
    S "ssh_user" m.sshUser,
    U "timestamp" m.timestamp,
    B "nonce" m.nonce]

-- ---------------------------------------------------------------------------
-- Host connect and grants
-- ---------------------------------------------------------------------------

structure HostConnect where
  version : Int
  hostID : JsString
  path : JsString
  timestamp : Int
  nonce : Bytes

def canonicalHostConnect (m : HostConnect) : Except CanonicalError Bytes :=
  encode (js "grantd/v1/host-connect") [
    U "version" m.version,
    S "host_id" m.hostID,
    S "path" m.path,
    U "timestamp" m.timestamp,
    B "nonce" m.nonce]

structure Grant where
  version : Int
  hostID : JsString
  grantID : JsString
  sshUser : JsString
  createdAt : Int
  expiresAt : Int

def minGrantTTL : Int := 60
def maxGrantTTL : Int := 28800

def parseGrant (raw : Option Json) : Except Thrown Grant := do
  let o ← requireObject raw (js "grant")
  let m : Grant := {
    version := ← int o (js "version")
    hostID := ← str o (js "host_id") 64
    grantID := ← str o (js "grant_id") 64
    sshUser := ← str o (js "ssh_user") maxUsernameBytes
    createdAt := ← int o (js "created_at")
    expiresAt := ← int o (js "expires_at") }
  checkVersion m.version
  ensure (hostIDRe m.hostID) (bad (js "malformed host_id"))
  ensure (grantIDRe m.grantID) (bad (js "malformed grant_id"))
  ensure (m.createdAt < m.expiresAt) (bad (js "expires_at must be after created_at"))
  ensure (minGrantTTL ≤ m.expiresAt - m.createdAt) (bad (js "grant ttl is below the minimum"))
  ensure (m.expiresAt - m.createdAt ≤ maxGrantTTL) (bad (js "grant ttl exceeds the maximum"))
  pure m

def serializeGrant (g : Grant) : Record :=
  [(js "version", .num (.integer g.version)),
    (js "host_id", .str g.hostID),
    (js "grant_id", .str g.grantID),
    (js "ssh_user", .str g.sshUser),
    (js "created_at", .num (.integer g.createdAt)),
    (js "expires_at", .num (.integer g.expiresAt))]

def canonicalGrant (m : Grant) : Except CanonicalError Bytes :=
  encode (js "grantd/v1/grant") [
    U "version" m.version,
    S "host_id" m.hostID,
    S "grant_id" m.grantID,
    S "ssh_user" m.sshUser,
    U "created_at" m.createdAt,
    U "expires_at" m.expiresAt]

-- ---------------------------------------------------------------------------
-- Redemption and agent registration
-- ---------------------------------------------------------------------------

structure RedemptionPayload where
  version : Int
  hostID : JsString
  grantID : JsString
  agentID : JsString
  agentPublicKey : Bytes
  sshPublicKey : JsString
  timestamp : Int
  nonce : Bytes

def parseRedemptionPayload (raw : Option Json) : Except Thrown RedemptionPayload := do
  let o ← requireObject raw (js "payload")
  let m : RedemptionPayload := {
    version := ← int o (js "version")
    hostID := ← str o (js "host_id") 64
    grantID := ← str o (js "grant_id") 64
    agentID := ← str o (js "agent_id") 64
    agentPublicKey := ← bytes o (js "agent_public_key") 32
    sshPublicKey := ← str o (js "ssh_public_key") maxSshPubkeyBytes
    timestamp := ← int o (js "timestamp")
    nonce := ← bytes o (js "nonce") 16 }
  checkVersion m.version
  ensure (hostIDRe m.hostID) (bad (js "malformed host_id"))
  ensure (grantIDRe m.grantID) (bad (js "malformed grant_id"))
  ensure (agentIDRe m.agentID) (bad (js "malformed agent_id"))
  let _ ← parseSshEd25519Line m.sshPublicKey
  pure m

def redemptionFields (m : RedemptionPayload) : List Field := [
  U "version" m.version,
  S "host_id" m.hostID,
  S "grant_id" m.grantID,
  S "agent_id" m.agentID,
  B "agent_public_key" m.agentPublicKey,
  S "ssh_public_key" m.sshPublicKey,
  U "timestamp" m.timestamp,
  B "nonce" m.nonce]

def canonicalRedemptionSig (m : RedemptionPayload) : Except CanonicalError Bytes :=
  encode (js "grantd/v1/redemption-agent-sig") (redemptionFields m)

def canonicalRedemptionMac (m : RedemptionPayload) : Except CanonicalError Bytes :=
  encode (js "grantd/v1/redemption-proof") (redemptionFields m)

structure RedemptionRequest where
  payload : RedemptionPayload
  agentSignature : Bytes
  proof : Bytes

def parseRedemptionRequest (raw : Option Json) : Except Thrown RedemptionRequest := do
  let o ← requireObject raw (js "body")
  pure {
    payload := ← parseRedemptionPayload (o.get (js "payload"))
    agentSignature := ← bytes o (js "agent_signature") 64
    proof := ← bytes o (js "proof") 32 }

structure AgentRegistration where
  version : Int
  agentID : JsString
  publicKey : Bytes
  challengeID : JsString
  powNonce : JsString
  timestamp : Int

def canonicalAgentRegistration (m : AgentRegistration) : Except CanonicalError Bytes :=
  encode (js "grantd/v1/agent-register") [
    U "version" m.version,
    S "agent_id" m.agentID,
    B "public_key" m.publicKey,
    S "challenge_id" m.challengeID,
    S "pow_nonce" m.powNonce,
    U "timestamp" m.timestamp]

def skewRegistration : Int := 300
def skewRedemption : Int := 120

def withinSkew (now ts skew : Int) : Bool := (now - ts).natAbs ≤ skew

end Grantd.Service
