import Grantd.Agent.Visitor
import Grantd.Signer.Decision
import Grantd.Signer.Records

/-!
# From an accepted redemption to a certificate in use

The host dates a certificate by its own clock and the visitor checks it by
another. The envelope may be 120 seconds off, the certificate starts 30
seconds early, and between the two lies a range of offsets where the grant is
spent on a certificate the visitor refuses.
-/

namespace Grantd.Agent

open Base Protocol Signer

variable {S : Signer} {L : Library}

-- ---------------------------------------------------------------------------
-- The two parties
-- ---------------------------------------------------------------------------

/-- Host and visitor use one library, the identity key's signatures verify, and
the CA key is a key that `ParseSSHPublicKey` reads. -/
structure Linked (L : Library) (S : Signer) : Prop where
  crypto : L.crypto = S.crypto
  parsePublicKey : L.parsePublicKey = S.parsePublicKey
  verifies : ∀ msg, verify S.crypto S.identity msg (S.sign msg) = true
  caKey : parseSSHPublicKey S.parsePublicKey S.sshCAPublicKeyLine = .ok S.ca.publicKey

/-- The library on a certificate of the host's CA: its line is read back, and
`CheckCert` refuses it to other principals, before `valid_after`, and from
`valid_before` on. -/
structure Library.Reads (L : Library) (S : Signer) (cert : Certificate) : Prop where
  parsed : L.parseAuthorizedKey (S.marshal cert) = some (.certificate cert)
  checked : ∀ principal now, L.checkCert principal cert now = true ↔
    principal ∈ cert.validPrincipals ∧ cert.validAfter.toNat ≤ now.toInt ∧
      now.toInt < cert.validBefore.toNat

/-- The certificate a redemption gives when it claims the row `g`. -/
def Issues (S : Signer) (n : Time) (draw : Draw) (req : RedemptionRequest) (g : GrantRow)
    (cert : Certificate) : Prop :=
  ∃ key, parseSSHPublicKey S.parsePublicKey req.payload.sshPublicKey = .ok key ∧
    issue S.ca draw.nonce (certRequest n req.payload key ⟨g.sshUser, g.expiresAt⟩ draw.serial) =
      .ok cert

-- ---------------------------------------------------------------------------
-- The host's side
-- ---------------------------------------------------------------------------

theorem enrolled_reachable {ok : Store → Op → Prop} (hs : (sequential S).Reachable ok s)
    (hh : s.host = some h) : Enrolled S h := by
  refine hs.invariant (I := fun s => ∀ h, s.host = some h → Enrolled S h) ?_ ?_ h hh
  · rintro _ rfl h hh
    cases hh
  · intro s op t hs _ hstep h hh
    cases hstep
    cases op with
    | enroll => exact enroll_enrolled hs hh
    | createGrant now ttl raw secret =>
      refine hs h (hh ▸ ?_)
      simp only [perform, Signer.createGrant]
      split <;> try rfl
      split <;> try rfl
      split <;> try rfl
      split <;> try rfl
      rename_i hins
      obtain ⟨grants, -, rfl⟩ := Store.createGrant_eq_some hins
      rfl
    | revokeGrant now id =>
      refine hs h (hh ▸ ?_)
      simp only [perform, revokeGrant]
      split <;> rfl
    | markPublished now id =>
      refine hs h (hh ▸ ?_)
      simp only [perform, markPublished]
      split <;> rfl
    | purgeExpired => exact hs h hh
    | redeem now draw req =>
      refine hs h (hh ▸ ?_)
      by_cases he : Eligible S s now req ∧
          withinSkew now.unix req.payload.timestamp skewRedemption = true
      · obtain ⟨hst, key, g, nonces, -, -, -, heq⟩ := redeem_eligible S draw he.1 he.2
        simp only [perform, heq, (finish_grants S).2]
        rfl
      · obtain ⟨e, s', heq, hhost, -⟩ := redeem_refused S draw he
        simp only [perform, heq, hhost]

/-- A redemption that succeeds was eligible, and its answer is about the host
row and the grant row alone. -/
theorem redeem_ok (h : S.redeem n draw req s = (.ok resp, s'))
    (hg : s.grants.get? req.payload.grantID = some g) :
    ∃ hst cert, s.host = some hst ∧ Eligible S s n req ∧ Issues S n draw req g cert ∧
      resp = S.response hst ⟨g.sshUser, g.expiresAt⟩ cert := by
  by_cases he : Eligible S s n req ∧
      withinSkew n.unix req.payload.timestamp skewRedemption = true
  · obtain ⟨hst, key, g', nonces, hhost, hkey, ⟨hget, -⟩, heq⟩ := redeem_eligible S draw he.1 he.2
    cases hget.symm.trans hg
    rw [heq] at h
    unfold finish at h
    split at h
    · cases h
    · rename_i cert hissue
      split at h
      · cases h
      · cases h
        exact ⟨hst, cert, hhost, he.1, ⟨key, hkey, hissue⟩, rfl⟩
  · obtain ⟨e, s₁, heq, -⟩ := redeem_refused S draw he
    rw [heq] at h
    cases h

-- ---------------------------------------------------------------------------
-- The visitor's side
-- ---------------------------------------------------------------------------

/-- The record of an enrolled host, passed on as the host signed it. -/
def recordOf (hostID : GoString) (r : HostRegisterRequest) : HostPublicRecord :=
  ⟨hostID, r.registration, r.signature⟩

theorem verifyHostRecord_of_enrolled (hlink : Linked L S) (henr : Enrolled S h)
    (hreg : S.hostRegistration (some h) t nonce = .ok r) :
    ∃ hostKey, verifyHostRecord L h.hostID (recordOf h.hostID r) =
      .ok ⟨S.registration h t nonce, S.ca.publicKey, hostKey⟩ := by
  obtain ⟨_, msg, ⟨⟩, -, hmsg, rfl⟩ := hostRegistration_eq_ok.mp hreg
  obtain ⟨hostKey, hkey⟩ := henr.hostKey
  refine ⟨hostKey, verifyHostRecord_eq_ok.mpr ?_⟩
  exact {
    registration := rfl
    version := rfl
    hostID := rfl
    recordID := rfl
    identity := hlink.crypto ▸ henr.hostID
    signature := ⟨msg, hmsg, hlink.crypto ▸ hlink.verifies msg⟩
    hostname := henr.hostname
    sshUser := henr.sshUser
    sshPort := henr.sshPort
    caKey := hlink.parsePublicKey ▸ hlink.caKey
    hostKey := hlink.parsePublicKey ▸ hkey }

theorem buildRedemption_payload {ident : Identity}
    (h : buildRedemption L ident cap line v nonce = .ok req) :
    req.payload.hostID = cap.hostID ∧ req.payload.grantID = cap.grantID ∧
      req.payload.sshPublicKey = line ∧ req.payload.timestamp = v.unix := by
  simp only [buildRedemption, bind_eq_ok, pure_eq_ok] at h
  obtain ⟨_, -, _, -, rfl⟩ := h
  exact ⟨rfl, rfl, rfl, rfl⟩

/-- A time that `uint64(t.Unix())` sends above the signed range is never
reached. -/
theorem toNat_toUInt64_le_iff {x v : Int64} :
    (x.toUInt64.toNat : Int) ≤ v.toInt ↔ 0 ≤ x ∧ x ≤ v := by
  by_cases hx : 0 ≤ x
  · rw [toNat_toUInt64 hx, ← Int64.le_iff_toInt_le]
    exact (and_iff_right hx).symm
  · have hv := v.toInt_lt
    have hneg : x.toInt < 0 := by simpa [Int64.le_iff_toInt_le] using hx
    have hcond := x.toInt_toBitVec
    rw [BitVec.toInt_eq_toNat_cond] at hcond
    have hnat : x.toUInt64.toNat = x.toBitVec.toNat := rfl
    simp only [hx, false_and, iff_false]
    split at hcond <;> omega

/-- The offsets between the two clocks, and the login names, on which the
certificate is of use: the back-dated reading of the host's clock is a time at
or before the visitor's, and the grant is for the user the host is enrolled
with. -/
def Usable (h : Host) (g : GrantRow) (n v : Time) : Prop :=
  0 ≤ (n.addSeconds (-clockSkewBackdate)).unix ∧
  (n.addSeconds (-clockSkewBackdate)).unix ≤ v.unix ∧ g.sshUser = h.sshUser

instance (h : Host) (g : GrantRow) (n v : Time) : Decidable (Usable h g n v) :=
  inferInstanceAs (Decidable (_ ∧ _ ∧ _))

theorem verifyRedemption_iff (hread : L.Reads S cert) (hissue : Issues S n draw req g cert)
    (hline : req.payload.sshPublicKey = publicSSHLine k) (hv : 0 ≤ v.unix)
    (hexp : v.unix < g.expiresAt) :
    (∃ cert', verifyRedemption L ⟨S.registration h t nonce, S.ca.publicKey, hostKey⟩
      (S.response h ⟨g.sshUser, g.expiresAt⟩ cert) (newEphemeralSSHKey k) v = .ok cert') ↔
      Usable h g n v := by
  obtain ⟨key, hkey, hissue⟩ := hissue
  have hof := issue_of hissue
  have hafter := hof.validAfter
  have hbefore := hof.validBefore
  simp only [certRequest, Time.unix_ofUnix] at hafter hbefore
  have hown : key = k := publicSSHLine_inj ((parseSSHPublicKey_line hkey).trans hline)
  have hend : v.unix.toInt < cert.validBefore.toNat := by
    rw [hbefore, toNat_toUInt64 (Int64.le_trans hv (Int64.le_of_lt hexp))]
    exact Int64.lt_iff_toInt_lt.mp hexp
  simp only [verifyRedemption_eq_ok, Usable, ← toNat_toUInt64_le_iff, ← hafter, ← and_assoc]
  constructor
  · rintro ⟨cert', hacc⟩
    have hparsed := hread.parsed.symm.trans hacc.parsed
    cases hparsed
    exact ⟨((hread.checked _ _).mp hacc.checked).2.1, hacc.user⟩
  · rintro ⟨hstart, huser⟩
    refine ⟨cert, ?_⟩
    have hprincipals : cert.validPrincipals = [h.sshUser] := hof.validPrincipals.trans (by
      rw [← huser]; rfl)
    exact {
      hostname := rfl
      port := rfl
      user := huser
      parsed := hread.parsed
      certType := hof.certType
      key := by rw [hof.key]; exact congrArg SSHPublicKey.wire hown
      principals := hprincipals
      signatureKey := congrArg SSHPublicKey.wire hof.signatureKey
      checked := (hread.checked _ _).mpr
        ⟨by rw [hprincipals]; exact .head _, hstart, hend⟩ }

/-- A visitor whose redemption the host accepts can use the certificate exactly
when the host's clock is no more than the back-dating ahead of theirs and the
grant is for the enrolled user. -/
theorem redemption_usable_iff {ok : Store → Op → Prop} (hs : (sequential S).Reachable ok s)
    (hlink : Linked L S) (hhost : s.host = some h)
    (hreg : S.hostRegistration s.host t nonce = .ok r)
    (hbuild : buildRedemption L ident cap (newEphemeralSSHKey k).line v nonce' = .ok req)
    (hgrant : s.grants.get? cap.grantID = some g)
    (hreads : ∀ cert, Issues S n draw req g cert → L.Reads S cert)
    (hredeem : S.redeem n draw req s = (.ok resp, s')) (hexp : v.unix < g.expiresAt) :
    ∃ host, verifyHostRecord L cap.hostID (recordOf h.hostID r) = .ok host ∧
      ((∃ cert, verifyRedemption L host resp (newEphemeralSSHKey k) v = .ok cert) ↔
        Usable h g n v) := by
  obtain ⟨hhostID, hgrantID, hline, htime⟩ := buildRedemption_payload hbuild
  rw [← hgrantID] at hgrant
  obtain ⟨hst, cert, hhost', he, hissue, rfl⟩ := redeem_ok hredeem hgrant
  cases hhost.symm.trans hhost'
  obtain ⟨_, ⟨⟩, hid⟩ := hhost ▸ he.host
  obtain ⟨hostKey, hverified⟩ :=
    verifyHostRecord_of_enrolled hlink (enrolled_reachable hs hhost) (hhost ▸ hreg)
  rw [← hhostID, hid]
  exact ⟨_, hverified, verifyRedemption_iff (hreads cert hissue) hissue hline
    (htime ▸ he.timestamp) hexp⟩

namespace Sample

open Signer.Sample

def capability : Capability := ⟨lit "https://grantd.example", hostID, grantID, secret⟩

def ident : Identity := ⟨agentKey, fun _ => request.agentSignature, agentID⟩

/-- The sample host, whose identity key signs its registration and its grant;
`line` is the certificate it issues and `signature` the CA's on it. -/
def host (signature : Bytes) (line : GoString) : Signer :=
  { signer proof signature line with
    sign := fun msg =>
      if ctxGrant.isPrefixOf (msg.drop 4) then grantSignature else registrationSignature }

def issued (S : Signer) (n : Time) : Certificate :=
  let cert := (certRequest n request.payload visitorKey ⟨user, 1700001800⟩ draw.serial).unsigned
    S.ca
    draw.nonce
  { cert with signature := S.ca.sign cert }

def library (S : Signer) (n : Time) : Library where
  crypto := S.crypto
  parsePublicKey := S.parsePublicKey
  parseAuthorizedKey line := if line = S.marshal (issued S n) then some (.certificate (issued S n))
    else none
  checkCert principal cert now := principal ∈ cert.validPrincipals ∧
    cert.validAfter.toNat ≤ now.toInt ∧ now.toInt < cert.validBefore.toNat

def answers (S : Signer) (n : Time) (s : Store) :
    Option (HostRegisterRequest × RedemptionResponse) :=
  match S.hostRegistration s.host 1700000000 registrationNonce, (S.redeem n draw request s).1 with
  | .ok r, .ok resp => some (r, resp)
  | _, _ => none

theorem answers_eq_some (h : answers S n s = some (r, resp)) : ∃ s',
    S.hostRegistration s.host 1700000000 registrationNonce = .ok r ∧
      S.redeem n draw request s = (.ok resp, s') := by
  unfold answers at h
  split at h
  · rename_i hreg hresp
    cases h
    exact ⟨(S.redeem n draw request s).2, hreg, Prod.ext hresp rfl⟩
  · cases h

theorem linked : Linked (library (host signature line) n) (host signature line) := by
  refine ⟨rfl, rfl, fun msg => ?_, ?_⟩
  · have hgrant : (identity.length == publicKeySize && grantSignature.length == signatureSize &&
        true) = true := by decide +kernel
    have hreg : (identity.length == publicKeySize &&
        registrationSignature.length == signatureSize && true) = true := by decide +kernel
    simp only [host]
    split
    · exact hgrant
    · exact hreg
  · have hca : parseSSHPublicKey parsePublicKey (publicSSHLine caKey) = .ok caKey := by
      decide +kernel
    exact hca

theorem built : buildRedemption (library (host signature line) n) ident capability
    (newEphemeralSSHKey visitorKey).line now request.payload.nonce = .ok request := by
  have h : buildRedemption ⟨crypto proof, parsePublicKey, fun _ => none, fun _ _ _ => false⟩ ident
      capability (newEphemeralSSHKey visitorKey).line now request.payload.nonce = .ok request := by
    decide +kernel
  exact h

theorem reads (hg : g.sshUser = user ∧ g.expiresAt = 1700001800) {cert : Certificate}
    (h : Issues (host signature line) n draw request g cert) :
    (library (host signature line) n).Reads (host signature line) cert := by
  obtain ⟨key, hkey, hissue⟩ := h
  have hvisitor : parseSSHPublicKey parsePublicKey request.payload.sshPublicKey =
      .ok visitorKey := by
    decide +kernel
  cases hvisitor.symm.trans hkey
  obtain ⟨-, -, -, rfl⟩ := (issue_eq_ok ..).mp hissue
  rw [hg.1, hg.2]
  refine ⟨if_pos rfl, fun principal now => ?_⟩
  simp only [library, decide_eq_true_eq]

def ahead : Time := .ofUnix 1700000100

def aheadHost : Signer :=
  host (hex "97b3a424201d653387437b8093bd2a6aab62af83501773c101856e1b2a72cb29" ++
    hex "d41373e5163eb88f8a68dd8055705c7eef5cb815bc157c71b4898a0fc9721c0f")
    (lit "ssh-ed25519-cert-v01@openssh.com AAAAIHNzaC1lZDI1NTE5LWNlcnQtdjAxQG9wZW5zc2guY29tAAA" ++
    lit "AIAYGBgYGBgYGBgYGBgYGBgYGBgYGBgYGBgYGBgYGBgYGAAAAIO1JKMYo0cLG6ukDOJBZlWEpWSc6XGP5Njb" ++
    lit "BRhSshzfRgAAAAAAAAAUAAAABAAAAPGdyYW50ZDpnX2FhYWFhYWFhYWFhYWFhYWE6YV9uaTRhaHZwcWxnaWN" ++
    lit "1aGRudjY2anhqZHNzaWpwcHN2bQAAAAsAAAAHdmlzaXRvcgAAAABlU/FGAAAAAGVT+AgAAAAAAAAAKAAAAAp" ++
    lit "wZXJtaXQtcHR5AAAAAAAAAA5wZXJtaXQtdXNlci1yYwAAAAAAAAAAAAAAMwAAAAtzc2gtZWQyNTUxOQAAACB" ++
    lit "uehzdKbC3j9E69MVZj+/07yqXFm48pvLk+/zNgFBb8QAAAFMAAAALc3NoLWVkMjU1MTkAAABAl7OkJCAdZTO" ++
    lit "HQ3uAk70qaqtir4NQF3PBAYVuGypyyynUE3PlFj64j4po3YBVcFx+71y4FbwVfHG0iYoPyXIcDw==")

def sampleHost : Signer := host (sample.ca.sign (issued sample now)) certificateLine

end Sample

/-- On one clock the certificate is good from its first second. -/
theorem redemption_usable_iff_sample : ∃ s resp s' r host cert,
    (sequential Sample.sampleHost).Reachable Signer.Sample.always s ∧
    Sample.sampleHost.redeem Signer.Sample.now Signer.Sample.draw Signer.Sample.request s =
      (.ok resp, s') ∧
    Sample.sampleHost.hostRegistration s.host 1700000000 Signer.Sample.registrationNonce = .ok r ∧
    verifyHostRecord (Sample.library Sample.sampleHost Signer.Sample.now) Signer.Sample.hostID
      (recordOf Signer.Sample.hostID r) = .ok host ∧
    verifyRedemption (Sample.library Sample.sampleHost Signer.Sample.now) host resp
      (newEphemeralSSHKey Signer.Sample.visitorKey) Signer.Sample.now = .ok cert := by
  have hexec : ((sequential Sample.sampleHost).exec Signer.Sample.always .empty
      Signer.Sample.history).any
        (fun s => (Sample.answers Sample.sampleHost Signer.Sample.now s).isSome &&
        s.host.any (fun h => (s.grants.get? Signer.Sample.grantID).any fun g =>
          h.hostID == Signer.Sample.hostID && g.sshUser == Signer.Sample.user &&
          g.expiresAt == 1700001800 &&
          decide (Usable h g Signer.Sample.now Signer.Sample.now))) = true := by
    decide +kernel
  obtain ⟨s, hs, hfacts⟩ := Option.any_eq_true .. |>.mp hexec
  obtain ⟨hanswers, hrows⟩ := Bool.and_eq_true_iff.mp hfacts
  obtain ⟨h, hhost, hrows⟩ := Option.any_eq_true .. |>.mp hrows
  obtain ⟨g, hgrant, hrows⟩ := Option.any_eq_true .. |>.mp hrows
  simp only [Bool.and_eq_true, beq_iff_eq, decide_eq_true_eq] at hrows
  obtain ⟨⟨⟨hid, huser⟩, hexp⟩, husable⟩ := hrows
  obtain ⟨⟨r, resp⟩, hanswers⟩ := Option.isSome_iff_exists.mp hanswers
  obtain ⟨s', hreg, hredeem⟩ := Sample.answers_eq_some hanswers
  have hreach := Signer.Sample.history_reachable Sample.sampleHost hs
  obtain ⟨host, hverified, hiff⟩ :=
    redemption_usable_iff hreach Sample.linked hhost hreg Sample.built
    hgrant (fun _ => Sample.reads ⟨huser, hexp⟩) hredeem (by rw [hexp]; decide)
  rw [hid] at hverified
  obtain ⟨cert, hcert⟩ := hiff.mpr husable
  exact ⟨s, resp, s', r, host, cert, hreach, hredeem, hreg, hverified, hcert⟩

/-- A host 100 seconds ahead accepts the envelope and spends the grant on a
certificate the visitor must refuse. -/
theorem accepted_certificate_refused : ∃ s resp s' r host,
    (sequential Sample.aheadHost).Reachable Signer.Sample.always s ∧
    buildRedemption (Sample.library Sample.aheadHost Sample.ahead) Sample.ident Sample.capability
      (newEphemeralSSHKey Signer.Sample.visitorKey).line Signer.Sample.now
      Signer.Sample.request.payload.nonce = .ok Signer.Sample.request ∧
    Sample.aheadHost.redeem Sample.ahead Signer.Sample.draw Signer.Sample.request s =
      (.ok resp, s') ∧
    Sample.aheadHost.hostRegistration s.host 1700000000 Signer.Sample.registrationNonce = .ok r ∧
    (∀ g, s.grants.get? Signer.Sample.grantID = some g → Signer.Sample.now.unix < g.expiresAt) ∧
    verifyHostRecord (Sample.library Sample.aheadHost Sample.ahead) Signer.Sample.hostID
      (recordOf Signer.Sample.hostID r) = .ok host ∧
    verifyRedemption (Sample.library Sample.aheadHost Sample.ahead) host resp
      (newEphemeralSSHKey Signer.Sample.visitorKey) Signer.Sample.now =
        .error (.certificate .refused) := by
  have hexec : ((sequential Sample.aheadHost).exec Signer.Sample.always .empty
      Signer.Sample.history).any (fun s => (Sample.answers Sample.aheadHost Sample.ahead s).any
        (fun (r, resp) => match verifyHostRecord (Sample.library Sample.aheadHost Sample.ahead)
            Signer.Sample.hostID (recordOf Signer.Sample.hostID r) with
          | .error _ => false
          | .ok host => verifyRedemption (Sample.library Sample.aheadHost Sample.ahead) host resp
              (newEphemeralSSHKey Signer.Sample.visitorKey) Signer.Sample.now =
                .error (.certificate .refused)) &&
        (s.grants.get? Signer.Sample.grantID).all (·.expiresAt == 1700001800)) = true := by
    decide +kernel
  obtain ⟨s, hs, hfacts⟩ := Option.any_eq_true .. |>.mp hexec
  obtain ⟨hanswers, hrow⟩ := Bool.and_eq_true_iff.mp hfacts
  obtain ⟨⟨r, resp⟩, hanswers, hverify⟩ := Option.any_eq_true .. |>.mp hanswers
  obtain ⟨s', hreg, hredeem⟩ := Sample.answers_eq_some hanswers
  dsimp only at hverify
  split at hverify
  · cases hverify
  · rename_i host hhost
    refine ⟨s, resp, s', r, host, Signer.Sample.history_reachable Sample.aheadHost hs, Sample.built,
      hredeem, hreg, fun g hg => ?_, hhost, of_decide_eq_true hverify⟩
    rw [hg, Option.all_some, beq_iff_eq] at hrow
    rw [hrow]
    decide

end Grantd.Agent
