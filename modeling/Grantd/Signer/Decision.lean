import Grantd.Signer.Ops
import Grantd.Base.Machine

/-!
# What Redeem decides

`Redeem` run on its own, against the conditions the protocol asks for. The two
agree, a refusal leaves the host, the grants and the certificates as they were,
and an acceptance gives the certificate of the grant's own row — except where
the clock arithmetic of the code wraps. `Decides` is the agreement, `Unwrapped`
the exact condition for it.
-/

namespace Grantd.Signer

open Base Protocol Canonical

variable (S : Signer)

-- ---------------------------------------------------------------------------
-- Operations one at a time
-- ---------------------------------------------------------------------------

inductive Op
  | enroll (now : Int64) (sshUser hostname : GoString) (port : UInt64) (line : GoString)
  | createGrant (now ttlSeconds : Int64) (raw secret : Bytes)
  | revokeGrant (now : Int64) (id : GoString)
  | markPublished (now : Int64) (id : GoString)
  | purgeExpired (now retain : Int64)
  | redeem (now : Time) (draw : Draw) (req : RedemptionRequest)

def perform (s : Store) : Op → Store
  | .enroll now sshUser hostname port line => (S.enroll now sshUser hostname port line s).2
  | .createGrant now ttlSeconds raw secret => (S.createGrant now ttlSeconds raw secret s).2
  | .revokeGrant now id => (revokeGrant now id s).2
  | .markPublished now id => (markPublished now id s).2
  | .purgeExpired now retain => purgeExpired now retain s
  | .redeem now draw req => (S.redeem now draw req s).2

/-- A signer that starts on an empty database and finishes every operation
before the next. -/
def sequential : Machine Store Op where
  Init s := s = .empty
  step s op := some (perform S s op)

-- ---------------------------------------------------------------------------
-- The conditions
-- ---------------------------------------------------------------------------

/-- The grant the request names, not revoked, not redeemed, not expired, under
a proof made with its secret. -/
def LiveGrant (s : Store) (now : Time) (req : RedemptionRequest) (g : GrantRow) : Prop :=
  s.grants.get? req.payload.grantID = some g ∧ g.revokedAt = none ∧ g.redeemedAt = none ∧
  now.unix < g.expiresAt ∧
  ∃ msg, req.payload.canonicalMAC = .ok msg ∧ req.proof = S.crypto.hmacSHA256 g.secret msg

/-- Every condition on a redemption but the one on its timestamp's distance. -/
structure Eligible (s : Store) (now : Time) (req : RedemptionRequest) : Prop where
  version : req.payload.version = 1
  host : ∃ h, s.host = some h ∧ req.payload.hostID = h.hostID
  grantID : validGrantID req.payload.grantID = true
  timestamp : 0 ≤ req.payload.timestamp
  nonceLength : req.payload.nonce.length = 16
  nonceFresh : ∀ n, s.nonces.get? (redeemScope, req.payload.nonce) = some n →
    n.seenAt < now.unix - nonceRetention
  agentKey : req.payload.agentPublicKey.length = 32
  agentID : agentID S.crypto req.payload.agentPublicKey = .ok req.payload.agentID
  encodable : req.payload.Encodable
  signature : ∃ msg, req.payload.canonicalSig = .ok msg ∧
    verify S.crypto req.payload.agentPublicKey msg req.agentSignature = true
  sshKey : ∃ key, parseSSHPublicKey S.parsePublicKey req.payload.sshPublicKey = .ok key
  grant : ∃ g, LiveGrant S s now req g

/-- The redemptions the protocol admits. -/
def Admissible (s : Store) (now : Time) (req : RedemptionRequest) : Prop :=
  Eligible S s now req ∧ Within now.unix req.payload.timestamp 120

-- ---------------------------------------------------------------------------
-- The checks
-- ---------------------------------------------------------------------------

theorem checkRequest_eq_ok {host : Option Host} {now : Int64} {req : RedemptionRequest} :
    (do checkVersion req.payload; S.checkRequest host now req) = .ok (h, key) ↔
      req.payload.version = 1 ∧ host = some h ∧ req.payload.hostID = h.hostID ∧
      validGrantID req.payload.grantID = true ∧
      withinSkew now req.payload.timestamp skewRedemption = true ∧
      req.payload.nonce.length = 16 ∧ req.payload.agentPublicKey.length = 32 ∧
      agentID S.crypto req.payload.agentPublicKey = .ok req.payload.agentID ∧
      (∃ msg, req.payload.canonicalSig = .ok msg ∧
        verify S.crypto req.payload.agentPublicKey msg req.agentSignature = true) ∧
      parseSSHPublicKey S.parsePublicKey req.payload.sshPublicKey = .ok key := by
  cases host with
  | none => simp [checkVersion, checkRequest, bind_eq_ok, ensure_eq_ok, throw_eq_ok]
  | some h' =>
    simp only [checkVersion, checkRequest, bind_eq_ok, ensure_eq_ok, pure_eq_ok, mapError_eq_ok,
      beq_iff_eq, checkAgentID, checkID, agentID, Prod.mk.injEq, Option.some.injEq]
    constructor
    · rintro ⟨_, hv, _, hhost, _, hgrant, _, hskew, _, hnonce, _, hkey, _, ⟨_, hid, rfl⟩, msg, hmsg,
        _, hsig, _, hparse, rfl, rfl⟩
      exact ⟨hv, rfl, hhost, hgrant, hskew, hnonce, hkey, hid, ⟨msg, hmsg, hsig⟩, hparse⟩
    · rintro ⟨hv, rfl, hhost, hgrant, hskew, hnonce, hkey, hid, ⟨msg, hmsg, hsig⟩, hparse⟩
      exact ⟨(), hv, (), hhost, (), hgrant, (), hskew, (), hnonce, (), hkey, (), ⟨_, hid, rfl⟩, msg,
        hmsg, (), hsig, key, hparse, rfl, rfl⟩

theorem verifyProof_eq_true {p : RedemptionPayload} {secret proof : Bytes} :
    S.verifyProof p secret proof = .ok true ↔
      ∃ msg, p.canonicalMAC = .ok msg ∧ proof = S.crypto.hmacSHA256 secret msg := by
  simp only [verifyProof, Signer.proof, bind_eq_ok, pure_eq_ok, beq_iff_eq]
  constructor
  · rintro ⟨_, ⟨msg, hmsg, rfl⟩, rfl⟩
    exact ⟨msg, hmsg, rfl⟩
  · rintro ⟨msg, hmsg, rfl⟩
    exact ⟨_, ⟨msg, hmsg, rfl⟩, rfl⟩

theorem canonicalSig_isOk {p : RedemptionPayload} (hv : p.version = 1) :
    (∃ msg, p.canonicalSig = .ok msg) ↔ 0 ≤ p.timestamp ∧ p.Encodable :=
  p.encode_isOk (by decide) (by decide) (hv ▸ by decide)

-- ---------------------------------------------------------------------------
-- What Redeem does
-- ---------------------------------------------------------------------------

/-- The database after the claim: the nonce is remembered and the row is
spent. -/
def spent (s : Store) (now : Time) (p : RedemptionPayload) (key : SSHPublicKey)
    (nonces : Table NonceRow.key) : Store :=
  { s with
    nonces
    grants := s.grants.update (Store.redeemRow p.grantID now.unix p.agentID
      (sshKeyFingerprint S.crypto key)) Store.redeemRow_id }

def finish (now : Time) (draw : Draw) (p : RedemptionPayload) (h : Host) (key : SSHPublicKey)
    (claim : Claim) (s : Store) : Except RedeemError RedemptionResponse × Store :=
  match issue S.ca draw.nonce (certRequest now p key claim draw.serial) with
  | .error e => (.error (.issue e), s)
  | .ok cert =>
    match s.recordCertificate (S.certificateRow now p key claim cert) with
    | none => (.error .store, s)
    | some s => (.ok (S.response h claim cert), s)

def SameRecords (s s' : Store) : Prop :=
  s'.host = s.host ∧ s'.grants = s.grants ∧ s'.certificates = s.certificates

theorem redeem_eligible (draw : Draw) (he : Eligible S s now req)
    (hskew : withinSkew now.unix req.payload.timestamp skewRedemption = true) :
    ∃ h key g nonces, s.host = some h ∧
      parseSSHPublicKey S.parsePublicKey req.payload.sshPublicKey = .ok key ∧
      LiveGrant S s now req g ∧
      S.redeem now draw req s = finish S now draw req.payload h key ⟨g.sshUser, g.expiresAt⟩
        (spent S s now req.payload key nonces) := by
  obtain ⟨h, hhost, hid⟩ := he.host
  obtain ⟨key, hkey⟩ := he.sshKey
  obtain ⟨g, hlive⟩ := he.grant
  obtain ⟨hget, hrev, hred, hexp, hproof⟩ := hlive
  have hcheck := (checkRequest_eq_ok S).mpr ⟨he.version, hhost, hid, he.grantID, hskew,
    he.nonceLength, he.agentKey, he.agentID, he.signature, hkey⟩
  obtain ⟨s₁, hs₁⟩ : ∃ s₁, (s.pruneNonces now.unix nonceRetention).insertNonce redeemScope
      req.payload.nonce now.unix = some s₁ := by
    rw [← Option.ne_none_iff_exists']
    intro hnone
    obtain ⟨n, hn, hkept⟩ := Store.remember_eq_none.mp hnone
    exact hkept (he.nonceFresh n hn)
  obtain ⟨nonces, -, rfl⟩ := Store.insertNonce_eq_some hs₁
  refine ⟨h, key, g, nonces, hhost, hkey, ⟨hget, hrev, hred, hexp, hproof⟩, ?_⟩
  have hclaim : S.claim now.unix req key { s.pruneNonces now.unix nonceRetention with nonces } =
      .ok (.ok g.sshUser g.expiresAt, spent S s now req.payload key nonces) :=
    Store.claimGrant_of_live hget hrev hexp hred ((verifyProof_eq_true S).mpr hproof)
  simp only [Signer.redeem, hcheck, hs₁, hclaim]
  rfl

theorem redeem_refused (draw : Draw) (h : ¬ (Eligible S s now req ∧
    withinSkew now.unix req.payload.timestamp skewRedemption = true)) :
    ∃ e s', S.redeem now draw req s = (.error e, s') ∧ SameRecords s s' := by
  unfold Signer.redeem
  dsimp only
  split
  · exact ⟨_, _, rfl, rfl, rfl, rfl⟩
  · rename_i hst key hcheck
    obtain ⟨hv, hhost, hid, hgrant, hskew, hnonce, hkey, hagent, hsig, hparse⟩ :=
      (checkRequest_eq_ok S).mp hcheck
    split
    · exact ⟨_, _, rfl, rfl, rfl, rfl⟩
    · rename_i s₁ hs₁
      obtain ⟨nonces, -, rfl⟩ := Store.insertNonce_eq_some hs₁
      split
      · exact ⟨_, _, rfl, rfl, rfl, rfl⟩
      · rename_i result s₂ hclaim
        split
        · rename_i e he
          have hsame : s₂ = _ := Store.claimGrant_rolled_back hclaim (by
            rintro u e rfl
            cases he)
          subst hsame
          exact ⟨_, _, rfl, rfl, rfl, rfl⟩
        · rename_i claim hok
          -- Every check has passed, so the request was eligible after all.
          cases result with
          | ok sshUser expiresAt =>
            obtain ⟨g, hget, hrev, hexp, hred, hproof, -⟩ := Store.claimGrant_ok hclaim
            obtain ⟨hts, hencodable⟩ := (canonicalSig_isOk hv).mp (hsig.imp fun _ h => h.1)
            refine absurd ⟨?_, hskew⟩ h
            exact {
              version := hv
              host := ⟨hst, hhost, hid⟩
              grantID := hgrant
              timestamp := hts
              nonceLength := hnonce
              nonceFresh := fun n hn => by
                by_contra hkept
                rw [Store.remember_eq_none.mpr ⟨n, hn, hkept⟩] at hs₁
                cases hs₁
              agentKey := hkey
              agentID := hagent
              encodable := hencodable
              signature := hsig
              sshKey := ⟨key, hparse⟩
              grant := ⟨g, hget, hrev, hred, hexp, (verifyProof_eq_true S).mp hproof⟩ }
          | _ => cases hok

theorem finish_grants {claim : Claim} :
    (finish S now draw p h key claim s).2.grants = s.grants ∧
    (finish S now draw p h key claim s).2.host = s.host := by
  unfold finish
  split
  · exact ⟨rfl, rfl⟩
  · split
    · exact ⟨rfl, rfl⟩
    · rename_i hrecord
      obtain ⟨hgrants, hhost, -⟩ := Store.recordCertificate_grants hrecord
      exact ⟨hgrants, hhost⟩

theorem get?_spent (now : Time) (key : SSHPublicKey) (nonces : Table NonceRow.key)
    (hget : s.grants.get? p.grantID = some g) (hred : g.redeemedAt = none) :
    ∃ g', (spent S s now p key nonces).grants.get? p.grantID = some g' ∧ g'.redeemedAt ≠ none := by
  refine ⟨_, (Table.get?_update _ _ Store.redeemRow_id _).trans
    (by rw [hget]; rfl), ?_⟩
  simp [Store.redeemRow, Table.key_get? hget, hred]

-- ---------------------------------------------------------------------------
-- The users in the tables
-- ---------------------------------------------------------------------------

structure UsersOk (s : Store) : Prop where
  host : ∀ h, s.host = some h → validateSSHUser h.sshUser = .ok ()
  grants : ∀ id g, s.grants.get? id = some g → validateSSHUser g.sshUser = .ok ()

theorem UsersOk.of_rows (hs : UsersOk s) (hhost : s'.host = s.host)
    (hgrants : ∀ id g', s'.grants.get? id = some g' →
      ∃ g, s.grants.get? id = some g ∧ g'.sshUser = g.sshUser) : UsersOk s' where
  host := hhost ▸ hs.host
  grants id g' hg' := by
    obtain ⟨g, hg, huser⟩ := hgrants id g' hg'
    exact huser ▸ hs.grants id g hg

theorem UsersOk.update (hs : UsersOk s) {f : GrantRow → GrantRow} (hf : ∀ r, (f r).id = r.id)
    (huser : ∀ r, (f r).sshUser = r.sshUser) (hhost : s'.host = s.host)
    (hgrants : s'.grants = s.grants.update f hf) : UsersOk s' := by
  refine hs.of_rows hhost fun id g' hg' => ?_
  rw [hgrants, Table.get?_update] at hg'
  obtain ⟨g, hg, rfl⟩ := Option.map_eq_some_iff.mp hg'
  exact ⟨g, hg, huser g⟩

theorem UsersOk.enroll (hs : UsersOk s) :
    UsersOk (S.enroll now sshUser hostname port line s).2 := by
  unfold Signer.enroll
  split
  · exact hs
  · rename_i h henroll
    simp only [enrollment, bind_eq_ok, mapError_eq_ok, pure_eq_ok] at henroll
    obtain ⟨_, huser, _, -, _, -, _, -, _, -, _, -, rfl⟩ := henroll
    unfold Store.setHost
    split
    all_goals
      refine ⟨fun h hh => ?_, hs.grants⟩
      cases hh
      exact huser

theorem UsersOk.createGrant (hs : UsersOk s) :
    UsersOk (S.createGrant now ttlSeconds raw secret s).2 := by
  unfold Signer.createGrant
  split
  · exact hs
  · split
    · exact hs
    · rename_i h hhost
      split
      · exact hs
      · split
        · exact hs
        · rename_i hins
          obtain ⟨grants, hrow, rfl⟩ := Store.createGrant_eq_some hins
          refine ⟨hs.host, fun id g hg => ?_⟩
          rw [Table.get?_insert hrow] at hg
          split at hg
          · cases hg
            exact hs.host h hhost
          · exact hs.grants id g hg

theorem UsersOk.redeem (hs : UsersOk s) : UsersOk (S.redeem now draw req s).2 := by
  by_cases h : Eligible S s now req ∧
      withinSkew now.unix req.payload.timestamp skewRedemption = true
  · obtain ⟨hst, key, g, nonces, -, -, -, heq⟩ := redeem_eligible S draw h.1 h.2
    rw [heq]
    refine hs.update Store.redeemRow_id (fun r => ?_) (finish_grants S).2 (finish_grants S).1
    unfold Store.redeemRow
    split <;> rfl
  · obtain ⟨e, s', heq, hhost, hgrants, -⟩ := redeem_refused S draw h
    rw [heq]
    exact hs.of_rows hhost fun id g hg => ⟨g, hgrants ▸ hg, rfl⟩

theorem UsersOk.perform (hs : UsersOk s) (op : Op) : UsersOk (perform S s op) := by
  cases op with
  | enroll => exact hs.enroll S
  | createGrant => exact hs.createGrant S
  | revokeGrant now id =>
    simp only [Signer.perform, revokeGrant]
    split
    · refine hs.update Store.revokeRow_id (fun r => ?_) rfl rfl
      unfold Store.revokeRow
      split <;> rfl
    · exact hs
  | markPublished now id =>
    simp only [Signer.perform, markPublished]
    split
    · refine hs.update Store.markPublishedRow_id (fun r => ?_) rfl rfl
      unfold Store.markPublishedRow
      split <;> rfl
    · exact hs
  | purgeExpired now retain =>
    refine hs.of_rows rfl fun id g hg => ?_
    have hg' := (Table.get?_delete ..).symm.trans hg
    exact ⟨g, (Option.filter_eq_some_iff.mp hg').1, rfl⟩
  | redeem => exact hs.redeem S

theorem UsersOk.reachable {ok : Store → Op → Prop} (h : (sequential S).Reachable ok s) :
    UsersOk s := by
  refine h.invariant ?_ fun s op t hs _ hstep => ?_
  · rintro _ rfl
    exact ⟨nofun, fun id g hg => nomatch hg⟩
  · cases hstep
    exact hs.perform S op

-- ---------------------------------------------------------------------------
-- The decision
-- ---------------------------------------------------------------------------

/-- The certificate in the response is the one of the grant's own row: its user
alone, never root, until its expiry and from the back-dated clock on. -/
def CertifiesRow (s : Store) (now : Time) (draw : Draw) (req : RedemptionRequest)
    (resp : RedemptionResponse) : Prop :=
  ∃ g cert, s.grants.get? req.payload.grantID = some g ∧ resp.certificate = S.marshal cert ∧
    cert.validPrincipals = [g.sshUser] ∧ g.sshUser ≠ root ∧
    cert.validBefore = g.expiresAt.toUInt64 ∧
    cert.validAfter = (now.addSeconds (-clockSkewBackdate)).unix.toUInt64 ∧
    parseSSHPublicKey S.parsePublicKey req.payload.sshPublicKey = .ok cert.key ∧
    cert.serial = draw.serial ∧ cert.signatureKey = S.ca.publicKey ∧
    cert.keyID = keyID req.payload.grantID req.payload.agentID ∧
    resp.user = g.sshUser ∧ resp.validBefore = g.expiresAt

/-- `Redeem` gives a certificate exactly to the admissible requests, the right
certificate, and changes none of the records when it refuses. -/
def Decides (s : Store) (now : Time) (draw : Draw) (req : RedemptionRequest) : Prop :=
  ((∃ resp, (S.redeem now draw req s).1 = .ok resp) ↔ Admissible S s now req) ∧
  (∀ resp, (S.redeem now draw req s).1 = .ok resp → CertifiesRow S s now draw req resp) ∧
  (∀ e, (S.redeem now draw req s).1 = .error e → SameRecords s (S.redeem now draw req s).2)

/-- The clock arithmetic does not wrap on an otherwise good request: the
timestamp does not merely look close, and `time.Unix(expires_at, 0)` comes
after the back-dated clock. -/
def Unwrapped (s : Store) (now : Time) (req : RedemptionRequest) : Prop :=
  Eligible S s now req → ¬ SkewWraps now.unix req.payload.timestamp 120 ∧
    (Within now.unix req.payload.timestamp 120 → ∀ g,
      s.grants.get? req.payload.grantID = some g →
      (Time.ofUnix g.expiresAt).after (now.addSeconds (-clockSkewBackdate)) = true)

theorem skew_iff {now ts : Int64} :
    withinSkew now ts skewRedemption = true ↔ Within now ts 120 ∨ SkewWraps now ts 120 :=
  withinSkew_iff rfl

theorem finish_ok (claim : Claim) (s : Store) (p : RedemptionPayload) (h : Host)
    (key : SSHPublicKey) (huser : validateSSHUser claim.sshUser = .ok ())
    (hafter : (Time.ofUnix claim.expiresAt).after (now.addSeconds (-clockSkewBackdate)) = true)
    (hserial : ∀ r ∈ s.certificates.table.rows, r.serial ≠ draw.serial.toInt64) :
    ∃ cert, issue S.ca draw.nonce (certRequest now p key claim draw.serial) = .ok cert ∧
      (finish S now draw p h key claim s).1 = .ok (S.response h claim cert) := by
  obtain ⟨hne, hroot⟩ := validateSSHUser_ok huser
  obtain ⟨cert, hissue⟩ : ∃ cert, issue S.ca draw.nonce
      (certRequest now p key claim draw.serial) = .ok cert := by
    simp only [issue_eq_ok]
    exact ⟨_, by simpa only [certRequest] using hne, by simpa only [certRequest] using hroot,
      by simpa only [certRequest] using hafter, rfl⟩
  have hcert : cert.serial = draw.serial := (issue_of hissue).serial
  obtain ⟨s', hrecord⟩ :
      ∃ s', s.recordCertificate (S.certificateRow now p key claim cert) = some s' :=
    Store.recordCertificate_fresh (by simpa only [certificateRow, hcert])
  refine ⟨cert, hissue, ?_⟩
  simp only [finish, hissue, hrecord]

theorem finish_empty (claim : Claim) (s : Store) (draw : Draw) (p : RedemptionPayload) (h : Host)
    (key : SSHPublicKey)
    (hafter : (Time.ofUnix claim.expiresAt).after (now.addSeconds (-clockSkewBackdate)) = false) :
    ∃ e, finish S now draw p h key claim s = (.error (.issue e), s) := by
  unfold finish
  split
  · exact ⟨_, rfl⟩
  · rename_i cert hissue
    obtain ⟨-, -, htrue, -⟩ := (issue_eq_ok ..).mp hissue
    simp only [certRequest, hafter, Bool.false_eq_true] at htrue

theorem certifies {claim : Claim} (h : Host)
    (hget : s.grants.get? req.payload.grantID = some g) (hg : claim = ⟨g.sshUser, g.expiresAt⟩)
    (huser : validateSSHUser g.sshUser = .ok ())
    (hkey : parseSSHPublicKey S.parsePublicKey req.payload.sshPublicKey = .ok key)
    (hissue : issue S.ca draw.nonce (certRequest now req.payload key claim draw.serial)
      = .ok cert) :
    CertifiesRow S s now draw req (S.response h claim cert) := by
  subst hg
  have hof := issue_of hissue
  have hafter := hof.validAfter
  have hbefore := hof.validBefore
  simp only [certRequest, Time.unix_ofUnix] at hafter hbefore
  exact ⟨g, cert, hget, rfl, hof.validPrincipals, (validateSSHUser_ok huser).2, hbefore, hafter,
    hof.key ▸ hkey, hof.serial, hof.signatureKey, hof.keyID, rfl, rfl⟩

/-- In every state the signer can reach, with a serial that is not taken, the
decision on a request is the protocol's exactly when no clock arithmetic wraps
on it. -/
theorem redeem_decides_iff {ok : Store → Op → Prop} (hs : (sequential S).Reachable ok s)
    (hserial : ∀ r ∈ s.certificates.table.rows, r.serial ≠ draw.serial.toInt64) :
    Decides S s now draw req ↔ Unwrapped S s now req := by
  by_cases hpass : Eligible S s now req ∧
      withinSkew now.unix req.payload.timestamp skewRedemption = true
  · obtain ⟨he, hskew⟩ := hpass
    obtain ⟨h, key, g, nonces, -, hkey, ⟨hget, -, hred, -⟩, heq⟩ := redeem_eligible S draw he hskew
    have huser : validateSSHUser g.sshUser = .ok () := (UsersOk.reachable S hs).grants _ g hget
    cases hafter : (Time.ofUnix g.expiresAt).after (now.addSeconds (-clockSkewBackdate)) with
    | true =>
      obtain ⟨cert, hissue, hok⟩ := finish_ok S ⟨g.sshUser, g.expiresAt⟩
        (spent S s now req.payload key nonces) req.payload h key huser hafter hserial
      rw [← heq] at hok
      have hcert := certifies S h hget rfl huser hkey hissue
      constructor
      · rintro ⟨hiff, -, -⟩ -
        have hwithin := (hiff.mp ⟨_, hok⟩).2
        refine ⟨fun hwraps => not_within_of_wraps hwraps (by decide) hwithin, fun _ g' hg' => ?_⟩
        cases hget.symm.trans hg'
        exact hafter
      · intro hun
        have hwithin : Within now.unix req.payload.timestamp 120 :=
          (skew_iff.mp hskew).resolve_right (hun he).1
        refine ⟨iff_of_true ⟨_, hok⟩ ⟨he, hwithin⟩, fun resp hresp => ?_, fun e he' => ?_⟩
        · cases hok.symm.trans hresp
          exact hcert
        · cases hok.symm.trans he'
    | false =>
      obtain ⟨e, hfin⟩ := finish_empty S ⟨g.sshUser, g.expiresAt⟩
        (spent S s now req.payload key nonces) draw req.payload h key hafter
      rw [← heq] at hfin
      constructor
      · rintro ⟨-, -, hsame⟩ -
        -- The claim has been written, so the refusal was not without effect.
        have hgrants := (hsame _ (congrArg Prod.fst hfin)).2.1
        rw [hfin] at hgrants
        obtain ⟨g', hg', hne⟩ := get?_spent S now key nonces hget hred
        rw [hgrants, hget] at hg'
        cases hg'
        exact absurd hred hne
      · intro hun
        obtain ⟨hwraps, hwindow⟩ := hun he
        have hwithin := (skew_iff.mp hskew).resolve_right hwraps
        exact absurd (hafter.symm.trans (hwindow hwithin g hget)) (by decide)
  · obtain ⟨e, s', heq, hsame⟩ := redeem_refused S draw hpass
    have hno : ¬ ∃ resp, (S.redeem now draw req s).1 = .ok resp := by
      rw [heq]
      rintro ⟨_, h⟩
      cases h
    have hnot : ¬ (Eligible S s now req ∧
        (Within now.unix req.payload.timestamp 120 ∨
          SkewWraps now.unix req.payload.timestamp 120)) :=
      fun ⟨he, h⟩ => hpass ⟨he, skew_iff.mpr h⟩
    refine iff_of_true ⟨iff_of_false hno fun ⟨he, h⟩ => hnot ⟨he, .inl h⟩, ?_, ?_⟩ ?_
    · exact fun resp hresp => absurd ⟨resp, hresp⟩ hno
    · exact fun _ _ => heq ▸ hsame
    · exact fun he => ⟨fun h => hnot ⟨he, .inr h⟩, fun h => absurd ⟨he, .inl h⟩ hnot⟩

namespace Sample

def history : List Op :=
  [.enroll 1700000000 user (lit "host.example") 22 (publicSSHLine hostKey),
    .createGrant 1700000000 1800 (List.replicate 10 0) secret]

def always (_ : Store) (_ : Op) : Prop := True

instance (s : Store) (op : Op) : Decidable (always s op) := inferInstanceAs (Decidable True)

theorem history_reachable (h : (sequential S).exec always .empty history = some s) :
    (sequential S).Reachable always s :=
  (Machine.Reachable.of_init rfl).run (.of_exec h)

/-- A redemption stamped with the last second an `int64` can hold. -/
def farRequest : RedemptionRequest where
  payload := payload 9223372036854775807
  agentSignature := hex "9cfbdcce45ff3200aacd223f974afa708965ab0ab31739ab46ed5c905422c6e3" ++
    hex "e751321e0fcabdcf2e3aa1196d2d4332580f09ae10cc84bfd98d6826dbe85c0a"
  proof := hex "95f04d38e4d49016883e39ad94c86c076fe466daf0d91e68ee299284c02b2e01"

def farSample : Signer :=
  signer farRequest.proof (hex "02501138e5384f32dca9782f94f3ae3b6376c486478ea09860e0fac93fae2153" ++
    hex "6c344a87c1b519fe0fb660ce225d2b7a21a11283491e2445b8a4407db2e9d90e")
    (lit "ssh-ed25519-cert-v01@openssh.com AAAAIHNzaC1lZDI1NTE5LWNlcnQtdjAxQG9wZW5zc2guY29tAAA" ++
    lit "AIAYGBgYGBgYGBgYGBgYGBgYGBgYGBgYGBgYGBgYGBgYGAAAAIO1JKMYo0cLG6ukDOJBZlWEpWSc6XGP5Njb" ++
    lit "BRhSshzfRgAAAAAAAAAUAAAABAAAAPGdyYW50ZDpnX2FhYWFhYWFhYWFhYWFhYWE6YV9uaTRhaHZwcWxnaWN" ++
    lit "1aGRudjY2anhqZHNzaWpwcHN2bQAAAAsAAAAHdmlzaXRvcv/////////hAAAAAGVT+AgAAAAAAAAAKAAAAAp" ++
    lit "wZXJtaXQtcHR5AAAAAAAAAA5wZXJtaXQtdXNlci1yYwAAAAAAAAAAAAAAMwAAAAtzc2gtZWQyNTUxOQAAACB" ++
    lit "uehzdKbC3j9E69MVZj+/07yqXFm48pvLk+/zNgFBb8QAAAFMAAAALc3NoLWVkMjU1MTkAAABAAlAROOU4TzL" ++
    lit "cqXgvlPOuO2N2xIZHjqCYYOD6yT+uIVNsNEqHwbUZ/g+2YM4iXSt6IaESg0keJEW4pEB9sunZDg==")

end Sample

/-- A good request at a good time is decided as the protocol asks, with a
certificate. -/
theorem redeem_decides_iff_sample : ∃ s, (sequential Sample.sample).Reachable Sample.always s ∧
    (∃ resp, (Sample.sample.redeem Sample.now Sample.draw Sample.request s).1 = .ok resp) ∧
    Decides Sample.sample s Sample.now Sample.draw Sample.request := by
  have hexec : ((sequential Sample.sample).exec Sample.always .empty Sample.history).any
      (fun s => s.certificates.table.rows.isEmpty &&
        (Sample.sample.redeem Sample.now Sample.draw Sample.request s).1.isOk &&
        (s.grants.get? Sample.grantID).all fun g => (Time.ofUnix g.expiresAt).after
          (Sample.now.addSeconds (-clockSkewBackdate))) = true := by
    decide +kernel
  obtain ⟨s, hs, hfacts⟩ := Option.any_eq_true .. |>.mp hexec
  simp only [Bool.and_eq_true, List.isEmpty_iff] at hfacts
  obtain ⟨⟨hempty, hok⟩, hafter⟩ := hfacts
  have hreach := Sample.history_reachable Sample.sample hs
  refine ⟨s, hreach, ?_, (redeem_decides_iff Sample.sample hreach (by simp [hempty])).mpr fun _ =>
    ⟨?_, fun _ g hg => ?_⟩⟩
  · cases h : (Sample.sample.redeem Sample.now Sample.draw Sample.request s).1 with
    | ok resp => exact ⟨resp, rfl⟩
    | error e => simp [h, Except.isOk, Except.toBool] at hok
  · simp only [Sample.now, Time.unix_ofUnix, Sample.request, Sample.payload]
    decide
  · have hget : s.grants.get? Sample.grantID = some g := hg
    rw [hget, Option.all_some] at hafter
    exact hafter

/-- A clock one second before 1970 takes a timestamp 292 billion years away
for a fresh one: the difference is the `int64` that is its own negative. -/
theorem redeem_skew_wraps : ∃ s, (sequential Sample.farSample).Reachable Sample.always s ∧
    (∀ r ∈ s.certificates.table.rows, r.serial ≠ Sample.draw.serial.toInt64) ∧
    ¬ Decides Sample.farSample s (.ofUnix (-1)) Sample.draw Sample.farRequest := by
  have hexec : ((sequential Sample.farSample).exec Sample.always .empty Sample.history).any
      (fun s => s.certificates.table.rows.isEmpty &&
        (Sample.farSample.redeem (.ofUnix (-1)) Sample.draw Sample.farRequest s).1.isOk)
      = true := by
    decide +kernel
  obtain ⟨s, hs, hfacts⟩ := Option.any_eq_true .. |>.mp hexec
  simp only [Bool.and_eq_true, List.isEmpty_iff] at hfacts
  obtain ⟨hempty, hok⟩ := hfacts
  refine ⟨s, Sample.history_reachable Sample.farSample hs, by simp [hempty], fun hd => ?_⟩
  cases h : (Sample.farSample.redeem (.ofUnix (-1)) Sample.draw Sample.farRequest s).1 with
  | ok resp =>
    have hwithin := (hd.1.mp ⟨resp, h⟩).2
    simp only [Time.unix_ofUnix, Sample.farRequest, Sample.payload] at hwithin
    exact absurd hwithin (by decide)
  | error e => simp [h, Except.isOk, Except.toBool] at hok

end Grantd.Signer
