import Grantd.Base.Table
import Grantd.Service.Schema

/-!
# The object of one host

cloudflare/src/durable-objects/host.ts: the tables of a HostDO and the
handlers that write them. A handler awaits nothing between its first and its
last statement on a table, and what it reads before that is the request and
columns that never change, so each one is a single step. The clock reading, the
open socket and the outcome of the DNS call are inputs; forwarded redemptions
have tables of their own and are not part of this model.
-/

namespace Grantd.Service

open Base

structure HostRow where
  hostID : JsString
  identityPublicKey : JsString
  sshCAPublicKey : JsString
  hostname : JsString
  sshPort : Int
  sshUser : JsString
  protocolVersion : Int
  createdAt : Int
  lastSeenAt : Int
  registrationJson : Option Json
  registrationSignature : Option JsString
  dnsName : Option JsString
  dnsIP : Option JsString

structure GrantRow where
  grantID : JsString
  signedPayload : Json
  hostSignature : JsString
  sshUser : JsString
  createdAt : Int
  expiresAt : Int
  publishedAt : Int

structure NonceRow where
  nonce : JsString
  seenAt : Int

structure HostDO where
  host : Option HostRow
  grants : Table GrantRow.grantID
  nonces : Table NonceRow.nonce

namespace HostDO

def empty : HostDO := ⟨none, .empty, .empty⟩

def maxPublishedGrants : Nat := 64
def grantRetention : Int := 86400

/-- The `catch` of `fetch`. -/
def caught (m : Except Thrown α) : Except Response α :=
  m.mapError fun
    | .parse code message => .error code message (statusFor code)
    | .other => errorResponse .internal "internal error"

/-- An error that is no `ParseError`. -/
def hidden (m : Except CanonicalError α) : Except Response α :=
  caught (m.mapError fun _ => .other)

def seenNonce (nonce : Bytes) (now : Int) (d : HostDO) : Bool × HostDO :=
  let pruned := d.nonces.delete (·.seenAt < now - skewRegistration * 4)
  match pruned.insert ⟨b64uEncode nonce, now⟩ with
  | none => (true, { d with nonces := pruned })
  | some nonces => (false, { d with nonces })

variable (C : Subtle)

-- ---------------------------------------------------------------------------
-- Registration
-- ---------------------------------------------------------------------------

/-- What `register` checks before it touches a table. -/
def checkRegistration (now : Int) (body : Record) : Except Response (HostRegistration × Bytes) := do
  let reg ← caught (parseHostRegistration (body.get (js "registration")))
  let signature ← caught (parseSignature body)
  let derived ← caught (Service.hostID C reg.identityPublicKey)
  ensure (derived == reg.hostID)
    (errorResponse .idMismatch "host_id does not match identity_public_key")
  ensure (withinSkew now reg.timestamp skewRegistration)
    (errorResponse .staleTimestamp "registration timestamp is outside the allowed window")
  let message ← hidden (canonicalHostRegistration reg)
  ensure (verifyEd25519 C reg.identityPublicKey message signature)
    (errorResponse .badSignature "registration signature does not verify")
  pure (reg, signature)

def updateHost (reg : HostRegistration) (signature : Bytes) (now : Int) (existing : HostRow) :
    HostRow :=
  { existing with
    sshCAPublicKey := reg.sshCAPublicKey
    hostname := reg.hostname
    sshPort := reg.sshPort
    sshUser := reg.sshUser
    protocolVersion := reg.version
    lastSeenAt := now
    registrationJson := some (.obj (serializeHostRegistration reg))
    registrationSignature := some (b64uEncode signature) }

def insertHost (reg : HostRegistration) (signature : Bytes) (now : Int) : HostRow where
  hostID := reg.hostID
  identityPublicKey := b64uEncode reg.identityPublicKey
  sshCAPublicKey := reg.sshCAPublicKey
  hostname := reg.hostname
  sshPort := reg.sshPort
  sshUser := reg.sshUser
  protocolVersion := reg.version
  createdAt := now
  lastSeenAt := now
  registrationJson := some (.obj (serializeHostRegistration reg))
  registrationSignature := some (b64uEncode signature)
  dnsName := none
  dnsIP := none

def registered (reg : HostRegistration) (updated : Bool) (dnsName : Option JsString) : Response :=
  .json (.obj [(js "host_id", .str reg.hostID), (js "registered", .bool true),
    (js "updated", .bool updated), (js "dns_name", (dnsName.map Json.str).getD .null)])
    (if updated then 200 else 201)

/-- `register`; `dnsName` is what `syncDns` answers once the row is written. -/
def register (now : Int) (body : Record) (dnsName : Option JsString) (d : HostDO) :
    Response × HostDO :=
  match checkRegistration C now body with
  | .error r => (r, d)
  | .ok (reg, signature) =>
    match seenNonce reg.nonce now d with
    | (true, d) => (errorResponse .replayedNonce "registration nonce has already been used", d)
    | (false, d) =>
      match d.host with
      | some existing =>
        if existing.identityPublicKey != b64uEncode reg.identityPublicKey then
          (errorResponse .idMismatch "identity key for this host_id is immutable", d)
        else
          (registered reg true dnsName,
            { d with host := some (updateHost reg signature now existing) })
      | none =>
        (registered reg false dnsName, { d with host := some (insertHost reg signature now) })

def publicRecord (connected : Bool) (d : HostDO) : Response :=
  match d.host with
  | none => errorResponse .hostNotFound "no such host"
  | some h => .json (.obj [
      (js "host_id", .str h.hostID),
      (js "identity_public_key", .str h.identityPublicKey),
      (js "ssh_ca_public_key", .str h.sshCAPublicKey),
      (js "hostname", .str h.hostname),
      (js "ssh_port", .num (.integer h.sshPort)),
      (js "ssh_user", .str h.sshUser),
      (js "protocol_version", .num (.integer h.protocolVersion)),
      (js "created_at", .num (.integer h.createdAt)),
      (js "last_seen_at", .num (.integer h.lastSeenAt)),
      (js "connected", .bool connected),
      (js "dns_name", (h.dnsName.map Json.str).getD .null),
      (js "registration", h.registrationJson.getD .null),
      (js "signature", (h.registrationSignature.map Json.str).getD .null)]) 200

-- ---------------------------------------------------------------------------
-- Rendezvous
-- ---------------------------------------------------------------------------

/-- The headers of a rendezvous. The timestamp is the number `Number` reads in
its header; an absent or an empty header is `none`. -/
structure ConnectHeaders where
  upgrade : Bool
  timestamp : Option JsNumber
  nonce : Option JsString
  signature : Option JsString

def checkConnect (now : Int) (h : HostRow) (headers : ConnectHeaders) : Except Response Bytes := do
  ensure headers.upgrade
    (.error .badRequest (js "this endpoint requires a websocket upgrade") 426)
  match headers.timestamp, headers.nonce, headers.signature with
  | some ts, some nonceHeader, some sigHeader =>
    match ts with
    | .other => throw (errorResponse .badRequest "malformed timestamp header")
    | .integer ts =>
      ensure (isSafeInteger (.integer ts) && 0 ≤ ts)
        (errorResponse .badRequest "malformed timestamp header")
      match b64uDecode nonceHeader, b64uDecode sigHeader with
      | some nonce, some signature =>
        ensure (nonce.length == 16 && signature.length == 64)
          (errorResponse .badRequest "malformed rendezvous headers")
        ensure (withinSkew now ts skewRegistration)
          (errorResponse .staleTimestamp "connect timestamp is outside the allowed window")
        let message ← hidden (canonicalHostConnect {
          version := h.protocolVersion
          hostID := h.hostID
          path := js "/v1/hosts/" ++ h.hostID ++ js "/connect"
          timestamp := ts
          nonce })
        match b64uDecode h.identityPublicKey with
        | none => throw (errorResponse .internal "internal error")
        | some identity =>
          ensure (verifyEd25519 C identity message signature)
            (errorResponse .badSignature "connect signature does not verify")
          pure nonce
      | _, _ => throw (errorResponse .badRequest "malformed rendezvous headers")
  | _, _, _ => throw (errorResponse .badRequest "missing rendezvous authentication headers")

def touch (now : Int) (d : HostDO) : HostDO :=
  { d with host := d.host.map fun h => { h with lastSeenAt := now } }

def rendezvous (now : Int) (headers : ConnectHeaders) (d : HostDO) : Response × HostDO :=
  match d.host with
  | none => (errorResponse .hostNotFound "register the host before connecting", d)
  | some h =>
    match checkConnect C now h headers with
    | .error r => (r, d)
    | .ok nonce =>
      match seenNonce nonce now d with
      | (true, d) => (errorResponse .replayedNonce "connect nonce has already been used", d)
      | (false, d) => (.webSocket, touch now d)

-- ---------------------------------------------------------------------------
-- Grants
-- ---------------------------------------------------------------------------

def checkPublish (now : Int) (grantID : JsString) (body : Record) (h : HostRow) :
    Except Response (Grant × Bytes) := do
  let grant ← caught (parseGrant (body.get (js "grant")))
  let signature ← caught (parseSignature body)
  ensure (grant.grantID == grantID)
    (errorResponse .badRequest "grant_id in body does not match the URL")
  ensure (grant.hostID == h.hostID)
    (errorResponse .idMismatch "grant is addressed to a different host")
  match b64uDecode h.identityPublicKey with
  | none => throw (errorResponse .internal "internal error")
  | some identity =>
    let message ← hidden (canonicalGrant grant)
    ensure (verifyEd25519 C identity message signature)
      (errorResponse .badSignature "grant signature does not verify")
    ensure (now < grant.expiresAt) (errorResponse .grantExpired "grant is already expired")
    ensure (grant.createdAt ≤ now + skewRegistration)
      (errorResponse .badRequest "grant created_at is in the future")
    pure (grant, signature)

def grantRow (grant : Grant) (signature : Bytes) (now : Int) : GrantRow where
  grantID := grant.grantID
  signedPayload := .obj (serializeGrant grant)
  hostSignature := b64uEncode signature
  sshUser := grant.sshUser
  createdAt := grant.createdAt
  expiresAt := grant.expiresAt
  publishedAt := now

/-- The row an upsert leaves in the place of `r`. -/
def replaceRow (row r : GrantRow) : GrantRow := if r.grantID = row.grantID then row else r

theorem replaceRow_grantID (r : GrantRow) : (replaceRow row r).grantID = r.grantID := by
  unfold replaceRow
  split
  · rename_i h
    exact h.symm
  · rfl

/-- `INSERT … ON CONFLICT(grant_id) DO UPDATE`. -/
def putGrant (row : GrantRow) (d : HostDO) : HostDO :=
  match d.grants.insert row with
  | some grants => { d with grants }
  | none => { d with grants := d.grants.update (replaceRow row) replaceRow_grantID }

def publishGrant (now : Int) (grantID : JsString) (body : Record) (d : HostDO) :
    Response × HostDO :=
  match d.host with
  | none => (errorResponse .hostNotFound "no such host", d)
  | some h =>
    match checkPublish C now grantID body h with
    | .error r => (r, d)
    | .ok (grant, signature) =>
      if maxPublishedGrants ≤ d.grants.count (now < ·.expiresAt) &&
          (d.grants.get? grantID).isNone then
        (errorResponse .tooManyGrants "too many active grants for this host", d)
      else
        (.json (.obj [(js "grant_id", .str grantID), (js "published", .bool true)]) 201,
          putGrant (grantRow grant signature now) d)

def grantRecord (connected : Bool) (grantID : JsString) (d : HostDO) : Response :=
  match d.host with
  | none => errorResponse .hostNotFound "no such host"
  | some h =>
    match d.grants.get? grantID with
    | none => errorResponse .grantNotFound "no such grant"
    | some row => .json (.obj [
        (js "grant", row.signedPayload),
        (js "signature", .str row.hostSignature),
        (js "host", .obj [(js "hostname", .str h.hostname),
          (js "ssh_port", .num (.integer h.sshPort)), (js "ssh_user", .str h.sshUser)]),
        (js "connected", .bool connected)]) 200

-- ---------------------------------------------------------------------------
-- Housekeeping
-- ---------------------------------------------------------------------------

def dnsSynced (name ip : JsString) (d : HostDO) : HostDO :=
  { d with host := d.host.map fun h => { h with dnsName := some name, dnsIP := some ip } }

def alarm (now : Int) (d : HostDO) : HostDO :=
  { d with
    grants := d.grants.delete (·.expiresAt < now - grantRetention)
    nonces := d.nonces.delete (·.seenAt < now - skewRegistration * 4) }

-- ---------------------------------------------------------------------------
-- What a handler can do to the tables
-- ---------------------------------------------------------------------------

theorem seenNonce_frame (nonce : Bytes) (now : Int) (d : HostDO) :
    ∃ nonces, (seenNonce nonce now d).2 = { d with nonces } := by
  unfold seenNonce
  dsimp only
  split <;> exact ⟨_, rfl⟩

/-- Nonces apart, `register` writes the row of a registration that passed, and
answers so, or it writes nothing. -/
theorem register_cases (now : Int) (body : Record) (dnsName : Option JsString) (d : HostDO) :
    (∃ nonces, (d.register C now body dnsName).2 = { d with nonces }) ∨
    ∃ reg signature nonces, checkRegistration C now body = .ok (reg, signature) ∧
      (∀ existing, d.host = some existing →
        existing.identityPublicKey = b64uEncode reg.identityPublicKey) ∧
      d.register C now body dnsName = (registered reg d.host.isSome dnsName,
        { d with
          nonces
          host := some (d.host.elim (insertHost reg signature now)
            (updateHost reg signature now)) }) := by
  unfold register
  split
  · exact .inl ⟨d.nonces, rfl⟩
  · rename_i reg signature hcheck
    obtain ⟨nonces, hframe⟩ := seenNonce_frame reg.nonce now d
    split
    · rename_i d' hseen
      rw [hseen] at hframe
      exact .inl ⟨nonces, hframe⟩
    · rename_i d' hseen
      rw [hseen] at hframe
      cases hframe
      cases hhost : d.host with
      | none =>
        refine .inr ⟨reg, signature, nonces, hcheck, by simp, ?_⟩
        simp
      | some existing =>
        dsimp only
        split
        · exact .inl ⟨nonces, rfl⟩
        · rename_i hsame
          have hkey : existing.identityPublicKey = b64uEncode reg.identityPublicKey := by
            simpa using hsame
          refine .inr ⟨reg, signature, nonces, hcheck, ?_, ?_⟩
          · rintro _ ⟨⟩
            exact hkey
          · simp

theorem rendezvous_cases (now : Int) (headers : ConnectHeaders) (d : HostDO) :
    ∃ nonces, (d.rendezvous C now headers).2 = { d with nonces } ∨
      (d.rendezvous C now headers).2 = touch now { d with nonces } := by
  unfold rendezvous
  split
  · exact ⟨d.nonces, .inl rfl⟩
  · split
    · exact ⟨d.nonces, .inl rfl⟩
    · rename_i nonce _
      obtain ⟨nonces, hframe⟩ := seenNonce_frame nonce now d
      split
      · rename_i d' hseen
        rw [hseen] at hframe
        exact ⟨nonces, .inl hframe⟩
      · rename_i d' hseen
        rw [hseen] at hframe
        exact ⟨nonces, .inr (congrArg (touch now) hframe)⟩

theorem publishGrant_cases (now : Int) (grantID : JsString) (body : Record) (d : HostDO) :
    (d.publishGrant C now grantID body).2 = d ∨
    ∃ h grant signature, d.host = some h ∧
      checkPublish C now grantID body h = .ok (grant, signature) ∧
      (d.grants.get? grantID = none → d.grants.count (now < ·.expiresAt) < maxPublishedGrants) ∧
      (d.publishGrant C now grantID body).2 = putGrant (grantRow grant signature now) d := by
  unfold publishGrant
  split
  · exact .inl rfl
  · rename_i h hhost
    split
    · exact .inl rfl
    · rename_i grant signature hcheck
      split
      · exact .inl rfl
      · rename_i hcap
        refine .inr ⟨h, grant, signature, hhost, hcheck, fun hnone => ?_, rfl⟩
        simpa [hnone] using hcap

theorem checkPublish_eq_ok {grantID : JsString} {h : HostRow} :
    checkPublish C now grantID body h = .ok (grant, signature) ↔
      parseGrant (body.get (js "grant")) = .ok grant ∧ parseSignature body = .ok signature ∧
      grant.grantID = grantID ∧ grant.hostID = h.hostID ∧
      now < grant.expiresAt ∧ grant.createdAt ≤ now + skewRegistration ∧
      ∃ identity message, b64uDecode h.identityPublicKey = some identity ∧
        canonicalGrant grant = .ok message ∧
        verifyEd25519 C identity message signature = true := by
  simp only [checkPublish, caught, hidden, bind_eq_ok, mapError_eq_ok, ensure_eq_ok, beq_iff_eq]
  constructor
  · rintro ⟨g, hparse, sig, hsig, _, hid, _, hhost, hrest⟩
    split at hrest
    · cases hrest
    · rename_i identity hidentity
      simp only [bind_eq_ok, mapError_eq_ok, ensure_eq_ok, pure_eq_ok, decide_eq_true_eq] at hrest
      obtain ⟨message, hmessage, _, hverify, _, hexpires, _, hcreated, hpair⟩ := hrest
      cases hpair
      exact ⟨hparse, hsig, hid, hhost, hexpires, hcreated, identity, message, hidentity, hmessage,
        hverify⟩
  · rintro ⟨hparse, hsig, hid, hhost, hexpires, hcreated, identity, message, hidentity, hmessage,
      hverify⟩
    refine ⟨grant, hparse, signature, hsig, (), hid, (), hhost, ?_⟩
    rw [hidentity]
    simp only [bind_eq_ok, mapError_eq_ok, ensure_eq_ok, pure_eq_ok, decide_eq_true_eq]
    exact ⟨message, hmessage, (), hverify, (), hexpires, (), hcreated, trivial⟩

/-- A publication that passes is taken, if it is known already or there is
room. -/
theorem publishGrant_taken {grantID : JsString} {h : HostRow} {d : HostDO} (hhost : d.host = some h)
    (hcheck : checkPublish C now grantID body h = .ok (grant, signature))
    (hroom : d.grants.get? grantID = none → d.grants.count (now < ·.expiresAt) <
      maxPublishedGrants) :
    d.publishGrant C now grantID body =
      (.json (.obj [(js "grant_id", .str grantID), (js "published", .bool true)]) 201,
        putGrant (grantRow grant signature now) d) := by
  have hpass : ¬ (decide (maxPublishedGrants ≤ d.grants.count (now < ·.expiresAt)) &&
      (d.grants.get? grantID).isNone) = true := by
    simp only [Bool.and_eq_true, decide_eq_true_eq, Option.isNone_iff_eq_none, not_and']
    exact fun hnone => Nat.not_le.mpr (hroom hnone)
  simp only [publishGrant, hhost, hcheck]
  rw [if_neg hpass]

variable {C}

/-- A connect that passes its checks carries a fresh signature under the key of
the row. -/
theorem checkConnect_eq_ok {row : HostRow} (h : checkConnect C now row headers = .ok nonce) :
    ∃ m message signature key, headers.timestamp = some (.integer m.timestamp) ∧
      m.nonce = nonce ∧ headers.nonce.bind b64uDecode = some nonce ∧
      headers.signature.bind b64uDecode = some signature ∧
      withinSkew now m.timestamp skewRegistration = true ∧
      canonicalHostConnect m = .ok message ∧ b64uDecode row.identityPublicKey = some key ∧
      verifyEd25519 C key message signature = true := by
  simp only [checkConnect, bind_eq_ok] at h
  obtain ⟨_, -, h⟩ := h
  split at h
  · rename_i ts nonceHeader sigHeader hts hnonce hsig
    split at h
    · cases h
    · rename_i ts
      simp only [bind_eq_ok] at h
      obtain ⟨_, -, h⟩ := h
      split at h
      · rename_i nonce' signature hn hs
        simp only [bind_eq_ok, ensure_eq_ok, hidden, caught, mapError_eq_ok] at h
        obtain ⟨_, -, _, hfresh, message, hmessage, h⟩ := h
        split at h
        · cases h
        · rename_i key hkey
          simp only [bind_eq_ok, ensure_eq_ok, pure_eq_ok] at h
          obtain ⟨_, hverify, rfl⟩ := h
          exact ⟨_, message, signature, key, hts, rfl, by rw [hnonce]; exact hn,
            by rw [hsig]; exact hs, hfresh, hmessage, hkey, hverify⟩
      · cases h
  · cases h

theorem checkRegistration_parts
    (h : checkRegistration C now body = .ok (m, signature)) : ∃ message,
    parseHostRegistration (body.get (js "registration")) = .ok m ∧
      parseSignature body = .ok signature ∧ canonicalHostRegistration m = .ok message ∧
      withinSkew now m.timestamp skewRegistration = true ∧
      verifyEd25519 C m.identityPublicKey message signature = true := by
  simp only [checkRegistration, caught, hidden, bind_eq_ok, ensure_eq_ok,
    pure_eq_ok, mapError_eq_ok] at h
  obtain ⟨_, hparse, _, hsig, _, -, _, -, _, hfresh, message, hmessage, _, hverify, hpair⟩ := h
  cases hpair
  exact ⟨message, hparse, hsig, hmessage, hfresh, hverify⟩

end HostDO

end Grantd.Service
