import Grantd.Signer.Ops

/-!
# Signed public records

The part of go/signer/signer.go that answers the daemon: the registration, the
headers of a rendezvous and the pending publications, each under the identity
key's signature. `Enrolled` is what an enrollment guarantees of the host row.
-/

namespace Grantd.Signer

open Base Protocol Canonical

variable (S : Signer)

inductive RecordError
  | noHost
  | noHostKey
  | canonical (e : CanonicalError)
  deriving DecidableEq, Repr

-- ---------------------------------------------------------------------------
-- Registration
-- ---------------------------------------------------------------------------

def sshCAPublicKeyLine : GoString := publicSSHLine S.ca.publicKey

structure HostRegisterRequest where
  registration : Protocol.HostRegistration
  signature : Bytes
  deriving DecidableEq, Repr

def registration (h : Host) (now : Int64) (nonce : Bytes) : Protocol.HostRegistration where
  version := version
  hostID := h.hostID
  identityPublicKey := S.identity
  sshCAPublicKey := S.sshCAPublicKeyLine
  sshHostPublicKey := h.sshHostPublicKey
  hostname := h.hostname
  sshPort := h.sshPort
  sshUser := h.sshUser
  timestamp := now
  nonce

/-- `HostRegistration`, on the host row that was read. -/
def hostRegistration (host : Option Host) (now : Int64) (nonce : Bytes) :
    Except RecordError HostRegisterRequest := do
  match host with
  | none => throw .noHost
  | some h =>
    ensure (h.sshHostPublicKey != []) .noHostKey
    let msg ← (S.registration h now nonce).canonical.mapError .canonical
    pure ⟨S.registration h now nonce, S.sign msg⟩

-- ---------------------------------------------------------------------------
-- Rendezvous
-- ---------------------------------------------------------------------------

structure ConnectAuth where
  hostID : GoString
  path : GoString
  timestamp : Int64
  nonce : GoString
  signature : GoString
  deriving DecidableEq, Repr

def rendezvousPath (path : GoString) : Bool :=
  !(path == [] || !(lit "/v1/hosts/").isPrefixOf path || path.length > 256)

def connect (h : Host) (path : GoString) (now : Int64) (nonce : Bytes) : HostConnect :=
  { version, hostID := h.hostID, path, timestamp := now, nonce }

/-- `SignConnect`, on the host row that was read. -/
def signConnect (host : Option Host) (path : GoString) (now : Int64) (nonce : Bytes) :
    Except RecordError ConnectAuth := do
  match host with
  | none => throw .noHost
  | some h =>
    let msg ← (connect h path now nonce).canonical.mapError .canonical
    pure { hostID := h.hostID, path, timestamp := now, nonce := b64 nonce
           signature := b64 (S.sign msg) }

-- ---------------------------------------------------------------------------
-- Publications
-- ---------------------------------------------------------------------------

def Store.pendingPublications (s : Store) (now : Int64) : List GrantRow :=
  (s.grants.rows.filter fun r =>
    r.publishedAt.isNone && r.revokedAt.isNone && r.expiresAt > now).mergeSort
      fun r q => r.createdAt ≤ q.createdAt

structure GrantPublishRequest where
  grant : Protocol.Grant
  signature : Bytes
  deriving DecidableEq, Repr

def publication (h : Host) (r : GrantRow) : Protocol.Grant where
  version := version
  hostID := h.hostID
  grantID := r.id
  sshUser := r.sshUser
  createdAt := r.createdAt
  expiresAt := r.expiresAt

/-- The loop of `PendingPublications`, over the rows that were read. The first
message without a canonical form fails the whole call. -/
def signPublications (h : Host) (pending : List GrantRow) :
    Except RecordError (List GrantPublishRequest) :=
  pending.mapM fun r => do
    let canon ← (publication h r).canonical.mapError .canonical
    pure ⟨publication h r, S.sign canon⟩

-- ---------------------------------------------------------------------------
-- The host row
-- ---------------------------------------------------------------------------

structure Enrolled (h : Host) : Prop where
  hostID : hostID S.crypto S.identity = .ok h.hostID
  sshUser : validateSSHUser h.sshUser = .ok ()
  hostname : validateHostname h.hostname = .ok ()
  sshPort : validatePort h.sshPort = .ok ()
  hostKey : ∃ key, parseSSHPublicKey S.parsePublicKey h.sshHostPublicKey = .ok key

/-- What the identity key is there to sign: the registration of an enrolled
row, a rendezvous, and the public half of a grant. -/
inductive Signable : Message → Prop
  | registration {h nonce} (now : Int64) (hh : Enrolled S h) (hn : nonce.length = nonceLen) :
      Signable (.hostRegistration (S.registration h now nonce))
  | connect {h path nonce} (now : Int64) (hh : Enrolled S h) (hp : rendezvousPath path = true)
      (hn : nonce.length = nonceLen) : Signable (.hostConnect (connect h path now nonce))
  | grant {h r} (hh : Enrolled S h) (hid : validGrantID r.id = true)
      (hu : validateSSHUser r.sshUser = .ok ()) : Signable (.grant (publication h r))

variable {S}

theorem enrollment_enrolled {line : GoString}
    (h : S.enrollment now sshUser hostname port line = .ok host) : Enrolled S host := by
  simp only [enrollment, bind_eq_ok, ensure_eq_ok, pure_eq_ok, mapError_eq_ok] at h
  obtain ⟨_, huser, _, hname, _, hport, _, -, key, hkey, id, hid, rfl⟩ := h
  exact ⟨hid, huser, hname, hport, key, hkey⟩

/-- `SetHost` keeps the `created_at` of the row it replaces, and nothing else
of it. -/
theorem enroll_enrolled (hs : ∀ h, s.host = some h → Enrolled S h)
    (hh : (S.enroll now sshUser hostname port line s).2.host = some h) : Enrolled S h := by
  unfold Signer.enroll at hh
  split at hh
  · exact hs h hh
  · rename_i hok
    have he := enrollment_enrolled hok
    unfold Store.setHost at hh
    split at hh
    · cases hh
      exact he
    · cases hh
      exact ⟨he.hostID, he.sshUser, he.hostname, he.sshPort, he.hostKey⟩

theorem hostRegistration_eq_ok {host : Option Host} {now : Int64} :
    S.hostRegistration host now nonce = .ok req ↔ ∃ h msg, host = some h ∧
      h.sshHostPublicKey ≠ [] ∧ (S.registration h now nonce).canonical = .ok msg ∧
      req = ⟨S.registration h now nonce, S.sign msg⟩ := by
  cases host with
  | none => simp [hostRegistration, throw_eq_ok]
  | some h =>
    simp only [hostRegistration, bind_eq_ok, ensure_eq_ok, pure_eq_ok, mapError_eq_ok, bne_iff_ne,
      Option.some.injEq]
    constructor
    · rintro ⟨_, hkey, msg, hmsg, rfl⟩
      exact ⟨h, msg, rfl, hkey, hmsg, rfl⟩
    · rintro ⟨_, msg, rfl, hkey, hmsg, rfl⟩
      exact ⟨(), hkey, msg, hmsg, rfl⟩

theorem Signable.grant_size (h : Signable S (.grant g)) : (Message.grant g).size ≤ 84 := by
  cases h with
  | grant hh hid hu =>
    have hhost := length_of_matchesID (matchesID_deriveID S.crypto hh.hostID)
    have hgrant := length_of_matchesID hid
    have huser := length_of_validateSSHUser hu
    have htag : (lit "h_").length = 2 ∧ (lit "g_").length = 2 := ⟨rfl, rfl⟩
    simp only [Message.size, publication]
    simp only [maxUsernameBytes] at huser
    omega

theorem Signable.size (h : Signable S m) (hca : S.sshCAPublicKeyLine.length ≤ maxSSHPubKeyBytes) :
    m.size ≤ 4096 := by
  have hidLen {h : Host} (hh : Enrolled S h) : h.hostID.length = 34 :=
    length_of_matchesID (matchesID_deriveID S.crypto hh.hostID)
  have huserLen {h : Host} (hh : Enrolled S h) := length_of_validateSSHUser hh.sshUser
  simp only [maxSSHPubKeyBytes, maxUsernameBytes] at hca huserLen
  cases h with
  | registration now hh hn =>
    obtain ⟨key, hkey⟩ := hh.hostKey
    have hline := length_of_parseSSHPublicKey hkey
    have hname := length_of_validateHostname hh.hostname
    have hident := length_of_deriveID S.crypto hh.hostID
    have hid := hidLen hh
    have huser := huserLen hh
    simp only [Message.size, Signer.registration, hn, hident, nonceLen, publicKeySize]
    simp only [maxSSHPubKeyBytes, maxHostnameBytes] at hline hname
    omega
  | @connect _ path _ now hh hp hn =>
    have hid := hidLen hh
    have hpath : path.length ≤ 256 := by
      simp only [rendezvousPath, Bool.not_eq_true', Bool.or_eq_false_iff,
        decide_eq_false_iff_not] at hp
      omega
    simp only [Message.size, Signer.connect, hn, nonceLen]
    omega
  | grant hh hid hu => exact Nat.le_trans (Signable.grant hh hid hu).grant_size (by decide)

namespace Sample

def registrationNonce : Bytes :=
  [16, 17, 18, 19, 20, 21, 22, 23, 24, 25, 26, 27, 28, 29, 30, 31]

/-- The identity key's signature on the sample host's registration of
November 2023. -/
def registrationSignature : Bytes :=
  hex "eb3186e52e5e6335909faee0add181556f39a9bbf6ee3c38d9104faaf2b5e0ff" ++
    hex "747a38023a5703736af18028a7dc7387c322c9f7b6ac19c97274d412fb3ae402"

end Sample

end Grantd.Signer
