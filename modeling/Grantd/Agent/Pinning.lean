import Grantd.Agent.Handover

/-!
# The visitor ends up where the host signed

The service may answer with any record and any response. If Ed25519 is not
broken and no other key has the host's id, a record that is accepted is, field
by field, a registration the host's identity key signed as a registration; and
then an accepted response leads to that host, that user and that CA only. The
bytes the identity key signs are short, so they are those of one message,
whatever the service puts into the record.
-/

namespace Grantd.Agent

open Base Protocol Signer

variable {S : Signer} {L : Library}

-- ---------------------------------------------------------------------------
-- What is not broken
-- ---------------------------------------------------------------------------

/-- `signed` are the messages the identity key of `S` has signed: the record's
signature is good for one of them at most, and no other key with the host's id
is in the record. -/
structure Genuine (L : Library) (S : Signer) (signed : Set Message)
    (record : HostPublicRecord) : Prop where
  signature : ∀ msg, verify L.crypto S.identity msg record.signature = true →
    ∃ m ∈ signed, m.canonical = .ok msg
  identity : Protocol.hostID L.crypto record.registration.identityPublicKey =
    Protocol.hostID L.crypto S.identity → record.registration.identityPublicKey = S.identity

/-- `CheckCert` on the certificate in the response: it lets it pass in its
window only, and under a signature that the holder of its signature key made.
`certified wire cert` is that. -/
def Library.Checks (L : Library) (certified : Bytes → Certificate → Prop)
    (resp : RedemptionResponse) : Prop :=
  ∀ principal cert (now : Int64), L.parseAuthorizedKey resp.certificate = some (.certificate cert) →
    L.checkCert principal cert now = true → cert.validAfter.toNat ≤ now.toInt ∧
      now.toInt < cert.validBefore.toNat ∧ certified cert.signatureKey.wire cert

-- ---------------------------------------------------------------------------
-- The record and the response
-- ---------------------------------------------------------------------------

theorem Verified.signed {id : GoString} {signed : Set Message} (h : Verified L id record host)
    (hid : Protocol.hostID L.crypto S.identity = .ok id) (hgen : Genuine L S signed record)
    (hsigned : ∀ m ∈ signed, Signable S m)
    (hca : S.sshCAPublicKeyLine.length ≤ maxSSHPubKeyBytes) :
    .hostRegistration record.registration ∈ signed := by
  obtain ⟨msg, hmsg, hverify⟩ := h.signature
  have hident := h.identity
  rw [h.registration] at hmsg hverify hident
  rw [hgen.identity (hident.trans hid.symm)] at hverify
  obtain ⟨m, hm, hcanon⟩ := hgen.signature msg hverify
  have hsize := (hsigned m hm).size hca
  have heq : m = .hostRegistration record.registration :=
    Message.eq_of_canonical hcanon hmsg (by omega)
  exact heq ▸ hm

/-- What the visitor gets is what the registration says. -/
structure Lands (reg : HostRegistration) (resp : RedemptionResponse)
    (key : EphemeralSSHKey) (now : Time) (certified : Bytes → Certificate → Prop)
    (cert : Certificate) : Prop where
  hostname : resp.hostname = reg.hostname
  port : resp.port = reg.sshPort
  user : resp.user = reg.sshUser
  certType : cert.certType = userCert
  key : cert.key.wire = key.publicSSH.wire
  principals : cert.validPrincipals = [reg.sshUser]
  ca : ∃ ca, publicSSHLine ca = reg.sshCAPublicKey ∧ cert.signatureKey.wire = ca.wire ∧
    certified ca.wire cert
  valid : cert.validAfter.toNat ≤ now.unix.toInt ∧ now.unix.toInt < cert.validBefore.toNat

theorem Accepted.lands {id : GoString} {key : EphemeralSSHKey} (hhost : Verified L id record host)
    (h : Accepted L host resp key now cert) (hcheck : L.Checks certified resp) :
    Lands record.registration resp key now certified cert := by
  obtain ⟨hafter, hbefore, hcert⟩ := hcheck _ cert now.unix h.parsed h.checked
  rw [h.signatureKey] at hcert
  exact {
    hostname := hhost.registration ▸ h.hostname
    port := hhost.registration ▸ h.port
    user := hhost.registration ▸ h.user
    certType := h.certType
    key := h.key
    principals := hhost.registration ▸ h.principals
    ca := ⟨host.caKey, hhost.registration ▸ parseSSHPublicKey_line hhost.caKey,
      h.signatureKey, hcert⟩
    valid := ⟨hafter, hbefore⟩ }

/-- Whatever the service answers: an accepted record is a registration that the
identity key behind the host id has signed as such, and an accepted response
goes to the address, user, CA and host key of that registration. -/
theorem visitor_lands_where_signed {id : GoString} {signed : Set Message}
    (certified : Bytes → Certificate → Prop)
    (hid : Protocol.hostID L.crypto S.identity = .ok id)
    (hca : parseSSHPublicKey S.parsePublicKey S.sshCAPublicKeyLine = .ok S.ca.publicKey)
    (hsigned : ∀ m ∈ signed, Signable S m) (hgen : Genuine L S signed record)
    (hrecord : verifyHostRecord L id record = .ok host) :
    .hostRegistration record.registration ∈ signed ∧
    (∀ resp key now cert, L.Checks certified resp →
      verifyRedemption L host resp key now = .ok cert →
      Lands record.registration resp key now certified cert) ∧
    knownHostsLine id host = id ++ lit " " ++ record.registration.sshHostPublicKey ++ lit "\n" ∧
    record.registration.sshHostPublicKey = publicSSHLine host.hostKey := by
  have hverified := verifyHostRecord_eq_ok.mp hrecord
  refine ⟨hverified.signed hid hgen hsigned (length_of_parseSSHPublicKey hca),
    fun resp key now cert hcheck hresp => ?_, ?_, ?_⟩
  · exact (verifyRedemption_eq_ok.mp hresp).lands hverified hcheck
  · rw [knownHostsLine, hverified.registration]
  · rw [← hverified.registration]
    exact (parseSSHPublicKey_line hverified.hostKey).symm

namespace Sample

open Signer.Sample

def row : Host := ⟨hostID, user, lit "host.example", 22, 1700000000, publicSSHLine hostKey⟩

def grantRow : GrantRow :=
  { id := grantID, secret, sshUser := user, createdAt := 1700000000, expiresAt := 1700001800 }

def registered : HostRegistration := sampleHost.registration row 1700000000 registrationNonce

def signed : Set Message := {.hostRegistration registered, .grant (publication row grantRow)}

/-- Ed25519 on the one record that is looked at. -/
def careful : Library := { library sampleHost now with
  crypto := { sampleHost.crypto with
    ed25519Verify := fun pub msg sig =>
      pub = sampleHost.identity ∧ sig = registrationSignature ∧
        registered.canonical.toOption = some msg } }

def record : HostPublicRecord := ⟨hostID, registered, registrationSignature⟩

def response : RedemptionResponse :=
  sampleHost.response row ⟨user, 1700001800⟩ (issued sampleHost now)

theorem row_enrolled : Enrolled sampleHost row := by
  have hkey : parseSSHPublicKey parsePublicKey (publicSSHLine hostKey) = .ok hostKey := by
    decide +kernel
  exact ⟨by decide +kernel, by decide, by decide, by decide, hostKey, hkey⟩

theorem signable : ∀ m ∈ signed, Signable sampleHost m := by
  rintro m (rfl | rfl)
  · exact .registration _ row_enrolled rfl
  · exact .grant row_enrolled (by decide) (by decide)

theorem genuine : Genuine careful sampleHost signed record := by
  refine ⟨fun msg hverify => ⟨.hostRegistration registered, .inl rfl, ?_⟩, fun _ => rfl⟩
  have hmsg : registered.canonical.toOption = some msg := by
    simp only [verify, careful, Bool.and_eq_true, decide_eq_true_eq] at hverify
    exact hverify.2.2.2
  simp only [Message.canonical]
  cases hcanon : registered.canonical with
  | error e =>
    rw [hcanon] at hmsg
    cases hmsg
  | ok e =>
    rw [hcanon] at hmsg
    cases hmsg
    rfl

end Sample

/-- The record of the sample host is its signed registration, and the visit goes
where that says. -/
theorem visitor_lands_where_signed_sample : ∃ host cert,
    verifyHostRecord Sample.careful Signer.Sample.hostID Sample.record = .ok host ∧
    verifyRedemption Sample.careful host Sample.response
      (newEphemeralSSHKey Signer.Sample.visitorKey) Signer.Sample.now = .ok cert ∧
    .hostRegistration Sample.record.registration ∈ Sample.signed ∧
    Lands Sample.record.registration Sample.response
      (newEphemeralSSHKey Signer.Sample.visitorKey) Signer.Sample.now
      (fun wire cert => wire = Signer.Sample.caKey.wire ∧
        cert = Sample.issued Sample.sampleHost Signer.Sample.now) cert := by
  have hrecord : verifyHostRecord Sample.careful Signer.Sample.hostID Sample.record =
      .ok ⟨Sample.registered, Signer.Sample.caKey, Signer.Sample.hostKey⟩ := by
    decide +kernel
  have hresp : verifyRedemption Sample.careful
      ⟨Sample.registered, Signer.Sample.caKey, Signer.Sample.hostKey⟩ Sample.response
      (newEphemeralSSHKey Signer.Sample.visitorKey) Signer.Sample.now =
        .ok (Sample.issued Sample.sampleHost Signer.Sample.now) := by
    decide +kernel
  have hlinked : Linked (Sample.library Sample.sampleHost Signer.Sample.now) Sample.sampleHost :=
    Sample.linked
  obtain ⟨hsigned, hlands, -⟩ := visitor_lands_where_signed
    (fun wire cert => wire = Signer.Sample.caKey.wire ∧
      cert = Sample.issued Sample.sampleHost Signer.Sample.now)
    Sample.row_enrolled.hostID hlinked.caKey Sample.signable Sample.genuine hrecord
  refine ⟨_, _, hrecord, hresp, hsigned, hlands _ _ _ _ ?_ hresp⟩
  intro principal cert now hparsed hcheck
  have hcert : cert = Sample.issued Sample.sampleHost Signer.Sample.now := by
    simp only [Sample.careful, Sample.library] at hparsed
    split at hparsed <;> cases hparsed
    rfl
  simp only [Sample.careful, Sample.library, decide_eq_true_eq] at hcheck
  exact ⟨hcheck.2.1, hcheck.2.2, by rw [hcert]; rfl, hcert⟩

end Grantd.Agent
