import Grantd.Agent.Pinning
import Grantd.Install.Enrolled
import Grantd.Install.NodeCert

/-!
# Where the Node client connects to

The record and the response come from a service that is not trusted, and they
may be any JSON values. If Ed25519 is not broken and no other key has the
host's id, a run of install/redeem.mjs that gets to writing its files has the
address, the user and the host key of a registration that the host has signed,
and a certificate that the host's CA has issued to this run's key, for that
user alone and for now.
-/

namespace Grantd.Install

open Base Service
open Protocol (Message ed25519Wire keyAlgoED25519)
open Canonical (writeLP)
open Signer (Certificate Signable Enrolled userCert issue)

-- ---------------------------------------------------------------------------
-- The response
-- ---------------------------------------------------------------------------

section
variable (N : Node)

/-- The checks of `main` on the response; `sshRawPub` is the key of this run. -/
def Node.checkResponse (host : NodeHost) (response : Json) (sshRawPub : Bytes) (now : Int) :
    Except Failure NodeCert := do
  ensure (strictEq (prop (some response) "hostname") host.hostname)
    (refuse "the response names a hostname the host did not sign")
  ensure (strictEq (prop (some response) "port") host.sshPort)
    (refuse "the response names a port the host did not sign")
  ensure (strictEq (prop (some response) "user") host.sshUser)
    (refuse "the response names a user the host did not sign")
  match prop (some response) "certificate" with
  | some (.str line) => do
    let cert ← N.parseCertificate line
    ensure (cert.caKey == host.caKey) (refuse "the certificate was not signed by the host's CA")
    ensure (cert.key == sshRawPub) (refuse "the certificate is for a different key")
    ensure (cert.certType == 1) (refuse "the certificate is not a user certificate")
    ensure (cert.principals.length == 1 && strictEq (cert.principals.head?.map .str) host.sshUser)
      (.principals cert.principals ((N.text host.sshUser).getD []))
    ensure (!(now < cert.validAfter || now ≥ cert.validBefore))
      (refuse "the certificate is not valid right now")
    pure cert
  -- Only a string has a method `trim`.
  | _ => throw .thrown

/-- The run up to the point where the key files are written. -/
def Node.visit (hostID : JsString) (record response : Json) (sshRawPub : Bytes) (now : Int) :
    Except Failure (NodeHost × NodeCert) := do
  let host ← N.verifyHostRecord hostID record
  let cert ← N.checkResponse host response sshRawPub now
  pure (host, cert)

structure Node.Accepted (host : NodeHost) (response : Json) (sshRawPub : Bytes) (now : Int)
    (cert : NodeCert) : Prop where
  hostname : strictEq (prop (some response) "hostname") host.hostname = true
  port : strictEq (prop (some response) "port") host.sshPort = true
  user : strictEq (prop (some response) "user") host.sshUser = true
  certificate : ∃ line, prop (some response) "certificate" = some (.str line) ∧
    N.parseCertificate line = .ok cert
  caKey : cert.caKey = host.caKey
  key : cert.key = sshRawPub
  certType : cert.certType = 1
  principals : ∃ p, cert.principals = [p] ∧ host.sshUser = some (.str p)
  valid : cert.validAfter ≤ now ∧ now < cert.validBefore

end

variable {N : Node}

theorem checkResponse_accepted (h : N.checkResponse host response sshRawPub now = .ok cert) :
    N.Accepted host response sshRawPub now cert := by
  simp only [Node.checkResponse, bind_eq_ok, ensure_eq_ok] at h
  obtain ⟨_, hhost, _, hport, _, huser, h⟩ := h
  split at h
  · rename_i line hline
    simp only [bind_eq_ok, ensure_eq_ok, pure_eq_ok, beq_iff_eq, Bool.and_eq_true,
      Bool.not_eq_true', Bool.or_eq_false_iff, decide_eq_false_iff_not] at h
    obtain ⟨parsed, hparsed, _, hca, _, hkey, _, htype, _, ⟨hlen, hprincipal⟩, _,
      ⟨hafter, hbefore⟩, rfl⟩ := h
    obtain ⟨p, hp⟩ := List.length_eq_one_iff.mp hlen
    rw [hp] at hprincipal
    rw [strictEq_comm] at hprincipal
    exact ⟨hhost, hport, huser, ⟨line, hline, hparsed⟩, hca, hkey, htype,
      ⟨p, hp, strictEq_str.mp hprincipal⟩, by omega⟩
  · cases h

-- ---------------------------------------------------------------------------
-- The certificate
-- ---------------------------------------------------------------------------

/-- A certificate that `Issue` has made for the host's CA. No string of it
reaches 4 GiB; the wire form of a key begins with its type, and an ssh-ed25519
key is 32 bytes. -/
structure IssuedBy (S : Signer) (cert : Certificate) : Prop where
  issued : ∃ nonce req, issue S.ca nonce req = .ok cert
  typeName : cert.typeName.length < 2 ^ 32
  nonce : cert.nonce.length < 2 ^ 32
  keyID : cert.keyID.length < 2 ^ 32
  principals : ∀ p ∈ cert.validPrincipals, (writeLP p).length < 2 ^ 32
  key : ∃ rest, cert.key.wire = writeLP cert.key.type ++ rest ∧
    (cert.key.type = keyAlgoED25519 → ∃ raw, raw.length = 32 ∧ rest = writeLP raw)

theorem IssuedBy.fields {S : Signer} (h : IssuedBy S cert)
    (hca : S.ca.publicKey.wire = ed25519Wire ca)
    (hlen : ca.length = 32) :
    (∃ p, cert.validPrincipals = [p]) ∧ cert.signatureKey = S.ca.publicKey ∧
      Fits cert := by
  obtain ⟨nonce, req, hissue⟩ := h.issued
  have hof := Signer.issue_of hissue
  obtain ⟨-, -, -, hcert⟩ := (Signer.issue_eq_ok ..).mp hissue
  have hprincipals := hof.validPrincipals
  refine ⟨⟨_, hprincipals⟩, hof.signatureKey, h.typeName, h.nonce, h.keyID, ?_, ?_, ?_, ?_⟩
  · rw [hprincipals, List.flatMap_singleton]
    exact h.principals _ (hprincipals ▸ List.mem_singleton.mpr rfl)
  · rw [hcert]
    exact (by decide : (Signer.packTuples []).length < 2 ^ 32)
  · rw [hcert]
    exact (by decide : (Signer.packTuples [(lit "permit-pty", []),
      (lit "permit-user-rc", [])]).length <
      2 ^ 32)
  · rw [hof.signatureKey, hca, length_ed25519Wire hlen]
    decide

theorem parseCertificate_issued {S : Signer} {issued : Set Certificate} {ca : Bytes}
    (h : N.parseCertificate line = .ok parsed) (hkey : parsed.caKey = ca)
    (hsig : ∀ msg sig, N.ed25519Verify ca msg sig = true → ∃ cert ∈ issued,
      msg = cert.bytesForSigning)
    (hissued : ∀ cert ∈ issued, IssuedBy S cert) (hca : S.ca.publicKey.wire = ed25519Wire ca)
    (hlen : ca.length = 32) : ∃ cert ∈ issued, cert.key.type = keyAlgoED25519 ∧
      cert.key.wire = ed25519Wire parsed.key ∧ parsed.certType = cert.certType.toNat ∧
      parsed.principals = cert.validPrincipals.map N.utf8 ∧
      parsed.validAfter = cert.validAfter.toNat ∧ parsed.validBefore = cert.validBefore.toNat := by
  unfold Node.parseCertificate at h
  dsimp only at h
  split at h
  · rename_i kind body hparts
    simp only [bind_eq_ok, ensure_eq_ok, orThrow_eq_ok, pure_eq_ok, beq_iff_eq] at h
    obtain ⟨_, -, ⟨type, r⟩, htype, _, hname, ⟨fields, r'⟩, hfields, _, -, principals, hprincipals,
      _, -, _, -, _, -, _, -, _, -, _, -, _, hverify, rfl⟩ := h
    simp only [Node.verifyRaw, Bool.and_eq_true] at hverify
    cases hkey
    obtain ⟨cert, hcert, hmsg⟩ := hsig _ _ hverify.2
    have hby := hissued cert hcert
    obtain ⟨⟨p, hp⟩, -, hfits⟩ := hby.fields hca hlen
    obtain ⟨rest, hwire, hrest⟩ := hby.key
    -- The part that was verified is the certificate, so it is what the reader meets.
    have hat : Reader.At ⟨N.base64 body, 0⟩ (writeLP cert.typeName ++ (writeLP cert.nonce ++
        (cert.keyBytes ++ cert.generic) ++ (N.base64 body).drop r'.off)) := by
      have happend := List.take_append_drop r'.off (N.base64 body)
      rw [hmsg, Certificate.bytesForSigning, List.append_assoc] at happend
      exact happend.symm
    obtain ⟨r1, hr1, hat⟩ := hat.string hfits.typeName
    rw [hr1] at htype
    simp only [Option.some.injEq, Prod.mk.injEq] at htype
    obtain ⟨rfl, rfl⟩ := htype
    have hed : cert.key.type = keyAlgoED25519 := by
      have hascii := fieldChar_ascii (by decide : (lit certName).all isFieldChar = true)
      have hsplit : lit certName = keyAlgoED25519 ++ lit "-cert-v01@openssh.com" := by decide
      have heq : cert.typeName = lit certName := (N.utf8_eq hascii).mp hname
      rw [Certificate.typeName, hsplit] at heq
      exact List.append_cancel_right heq
    obtain ⟨raw, hraw, rfl⟩ := hrest hed
    have hkeyBytes : cert.keyBytes = writeLP raw := by
      rw [Certificate.keyBytes, hwire, List.drop_left]
    obtain ⟨r2, hr2⟩ := certFields_at hfits hkeyBytes (by omega) hat
    rw [hr2] at hfields
    simp only [Option.some.injEq, Prod.mk.injEq] at hfields
    obtain ⟨rfl, rfl⟩ := hfields
    refine ⟨cert, hcert, hed, ?_, rfl, ?_, rfl, rfl⟩
    · rw [hwire, hed]
      rfl
    · have hone : cert.validPrincipals.flatMap writeLP = writeLP p := by
        rw [hp, List.flatMap_singleton]
      have hplen : p.length < 2 ^ 32 := by
        have hlp := hby.principals p (hp ▸ List.mem_singleton.mpr rfl)
        simp only [writeLP, List.length_append] at hlp
        omega
      have hpos : 0 < (writeLP p).length := by
        simp only [writeLP, Canonical.u32be, List.length_append, Code.length_bigEndian]
        omega
      simp only [certFieldsOf, hone, Reader.strings_one hplen hpos, Option.some.injEq]
        at hprincipals
      rw [← hprincipals, hp]
  · cases h

-- ---------------------------------------------------------------------------
-- The run
-- ---------------------------------------------------------------------------

/-- `signed` are the messages that the identity key of `S` has signed, and
`issued` the certificates of its CA key: nothing else verifies, and no other key
with the host's id is in the record. -/
structure Node.Genuine (N : Node) (S : Signer) (signed : Set Message) (issued : Set Certificate)
    (record : Json) : Prop where
  identity : ∀ pub, N.buffer N.base64url
      (prop (prop (some record) "registration") "identity_public_key") = some pub →
    N.idOf "h" pub = N.idOf "h" S.identity → pub = S.identity
  registration : ∀ msg sig, N.ed25519Verify S.identity msg sig = true →
    ∃ m ∈ signed, m.canonical = .ok msg
  certificate : ∀ ca msg sig, S.ca.publicKey.wire = ed25519Wire ca →
    N.ed25519Verify ca msg sig = true → ∃ cert ∈ issued, msg = cert.bytesForSigning

/-- What the files and the command line of ssh are made from. -/
structure NodeLands (S : Signer) (issued : Set Certificate) (reg : Protocol.HostRegistration)
    (host : NodeHost)
    (response : Json) (sshRawPub : Bytes) (now : Int) : Prop where
  hostname : prop (some response) "hostname" = some (.str (ofBytes reg.hostname))
  port : prop (some response) "port" = some (.num (.integer reg.sshPort.toNat))
  user : prop (some response) "user" = some (.str (ofBytes reg.sshUser))
  hostKey : host.hostKeyLine = ofBytes reg.sshHostPublicKey
  certificate : ∃ cert ∈ issued, cert.signatureKey = S.ca.publicKey ∧
    cert.key = ⟨keyAlgoED25519, ed25519Wire sshRawPub⟩ ∧ cert.certType = userCert ∧
    cert.validPrincipals = [reg.sshUser] ∧ cert.validAfter.toNat ≤ now ∧
      now < cert.validBefore.toNat

theorem Node.Verified.signed {S : Signer} {signed : Set Message} {id : JsString}
    (h : N.Verified id record host) (hid : N.idOf "h" S.identity = id)
    (hca : S.sshCAPublicKeyLine.length ≤ Protocol.maxSSHPubKeyBytes)
    (hsigned : ∀ m ∈ signed, Signable S m) (hgen : N.Genuine S signed issued record) :
    ∃ reg, .hostRegistration reg ∈ signed ∧
      N.Reads (prop (some record) "registration") (RegValues.ofRegistration reg) := by
  obtain ⟨identity, canonical, signature, hident, hderived, hcanon, -, hverify⟩ := h.signature
  have hself := hgen.identity identity hident (hderived.trans hid.symm)
  subst hself
  obtain ⟨v, hfits, -, hreads, rfl⟩ := canonical_eq_some.mp hcanon
  simp only [Node.verifyRaw, Bool.and_eq_true] at hverify
  obtain ⟨m, hm, hmsg⟩ := hgen.registration _ _ hverify.2
  have hsize := (hsigned m hm).size hca
  obtain ⟨reg, rfl, rfl⟩ := registration_of_bytes hmsg (by omega) hfits
  exact ⟨reg, hm, hreads⟩

theorem eq_ofBytes (h : b.all isFieldChar = true) (hs : textEncode s = b) : s = ofBytes b := by
  subst hs
  exact (ofBytes_textEncode (fieldChar_ascii h)).symm

theorem answered {v w : JsValue} (h : strictEq v w = true) (hw : N.buffer textEncode w = some b)
    (hb : b.all isFieldChar = true) :
    v = some (.str (ofBytes b)) ∧ w = some (.str (ofBytes b)) := by
  obtain ⟨s, hv, hw', hs⟩ := str_of_strictEq h hw
  rw [← eq_ofBytes hb hs]
  exact ⟨hv, hw'⟩

theorem answered_port {v w : JsValue} (h : strictEq v w = true) (hport : isPort w = true)
    (hw : N.bigInt w = some z) : v = some (.num (.integer z)) := by
  unfold isPort at hport
  split at hport
  · cases hw
    exact strictEq_integer.mp h
  · cases hport

theorem Node.Verified.caKey_eq {id : JsString} (h : N.Verified id record host)
    (hline : N.buffer textEncode (prop (prop (some record) "registration") "ssh_ca_public_key") =
      some (keyLine raw)) (hraw : raw.length = 32) : host.caKey = raw := by
  obtain ⟨ca, r, hca, hr, ⟨r', hstring⟩, -⟩ := h.caKey
  rw [hca, Node.buffer, Option.some.injEq] at hline
  rw [eq_ofBytes (keyLine_fieldChar raw) hline] at hr
  obtain ⟨r0, hr0, r1, hr1⟩ := keyReader_keyLine N hraw
    "the host record carries a malformed SSH CA key" "the SSH CA key is not ssh-ed25519"
  cases hr.symm.trans hr0
  cases hstring.symm.trans hr1
  rfl

/-- Whatever the service answers: a run that gets to writing its files has the
hostname, port and user of a registration that the host has signed, pins the host
key of that registration, and holds a user certificate that the host's CA has
issued to this run's key, for that user alone and for now. -/
theorem node_lands_where_signed {S : Signer} {signed : Set Message} {issued : Set Certificate}
    {id : JsString} (hid : N.idOf "h" S.identity = id) (hed : ReadsEd25519 S.parsePublicKey)
    (hca : Protocol.parseSSHPublicKey S.parsePublicKey S.sshCAPublicKeyLine = .ok S.ca.publicKey)
    (hsigned : ∀ m ∈ signed, Signable S m) (hissued : ∀ cert ∈ issued, IssuedBy S cert)
    (hgen : N.Genuine S signed issued record)
    (h : N.visit id record response sshRawPub now = .ok (host, cert)) :
    ∃ reg, .hostRegistration reg ∈ signed ∧ NodeLands S issued reg host response sshRawPub now := by
  simp only [Node.visit, bind_eq_ok, pure_eq_ok] at h
  obtain ⟨host', hhost, cert', hcert, heq⟩ := h
  cases heq
  have hv := verifyHostRecord_eq_ok.mp hhost
  have hr := checkResponse_accepted hcert
  obtain ⟨reg, hreg, hreads⟩ :=
    hv.signed hid (Protocol.length_of_parseSSHPublicKey hca) hsigned hgen
  obtain ⟨ca, hcaLine, hcaLen, hcaWire⟩ := keyLine_of_parse hed hca
  refine ⟨reg, hreg, ?_⟩
  cases hsigned _ hreg with
  | @registration row nonce at_ hh hn =>
    obtain ⟨_, hkey⟩ := hh.hostKey
    obtain ⟨key, hkeyLine, -, -⟩ := keyLine_of_parse hed hkey
    have hkeyChars : row.sshHostPublicKey.all isFieldChar = true := hkeyLine ▸ keyLine_fieldChar key
    have hhostname := hr.hostname
    have huser := hr.user
    have hport := hr.port
    rw [hv.hostname.1] at hhostname
    rw [hv.user.1] at huser
    rw [hv.port.1] at hport
    obtain ⟨hhostname, -⟩ := answered hhostname hreads.hostname (fieldChar_of_hostname hh.hostname)
    obtain ⟨huser, huserReg⟩ := answered huser hreads.sshUser (fieldChar_of_user hh.sshUser)
    have hcaKey := hv.caKey_eq (hreads.sshCAPublicKey.trans (congrArg some hcaLine)) hcaLen
    obtain ⟨line, -, hparsed⟩ := hr.certificate
    obtain ⟨issuedCert, hissuedCert, htype, hwire, hcertType, hprincipals, hafter, hbefore⟩ :=
      parseCertificate_issued hparsed (hr.caKey.trans hcaKey)
        (fun msg sig => hgen.certificate ca msg sig hcaWire) hissued hcaWire hcaLen
    obtain ⟨⟨q, hq⟩, hca', -⟩ := (hissued _ hissuedCert).fields hcaWire hcaLen
    obtain ⟨p, hp, hpuser⟩ := hr.principals
    have hqp : q = row.sshUser := by
      rw [hv.user.1, huserReg] at hpuser
      rw [hp, hq] at hprincipals
      cases hpuser
      have hutf8 : N.utf8 q = ofBytes row.sshUser := (List.cons.inj hprincipals).1.symm
      exact (N.utf8_eq (fieldChar_ascii (fieldChar_of_user hh.sshUser))).mp hutf8
    have hvalid := hr.valid
    rw [hafter, hbefore] at hvalid
    refine ⟨hhostname, answered_port hport (hv.port.1 ▸ hv.port.2) hreads.sshPort, huser, ?_,
      issuedCert, hissuedCert, hca', ?_, ?_, hq.trans (congrArg (fun u => [u]) hqp), hvalid⟩
    · have hline := hreads.sshHostPublicKey
      rw [hv.hostKey.1, Node.buffer, Option.some.injEq] at hline
      exact eq_ofBytes hkeyChars hline
    · rw [← hr.key, ← htype, ← hwire]
    · have hone : issuedCert.certType.toNat = 1 := hcertType.symm.trans hr.certType
      exact UInt32.toNat_inj.mp hone

namespace Sample

open Signer.Sample Agent.Sample

def certificate : Certificate := issued sampleHost now

def caRaw : Bytes := Signer.Sample.caKey.wire.drop 19
def visitorRaw : Bytes := visitorKey.wire.drop 19

/-- Ed25519 on the two signatures that are looked at. -/
def visitor : Node := { node with
  ed25519Verify := fun pub msg sig =>
    (pub = sampleHost.identity ∧ sig = registrationSignature ∧
      registered.canonical.toOption = some msg) ∨
      (pub = caRaw ∧ sig = certificate.signature ∧ msg = certificate.bytesForSigning) }

def answer : Json :=
  .obj [(js "hostname", .str (js "host.example")), (js "port", .num (.integer 22)),
    (js "user", .str (js "visitor")), (js "certificate", .str (ofBytes certificateLine))]

def answerRecord : Json := .obj (bodyOf ⟨registered, registrationSignature⟩)

theorem certificate_issued :
    ∀ cert ∈ ({certificate} : Set Certificate), IssuedBy sampleHost cert := by
  rintro cert rfl
  have hissue : issue sampleHost.ca draw.nonce (Signer.certRequest now request.payload visitorKey
      ⟨user, 1700001800⟩ draw.serial) = .ok certificate :=
    (Signer.issue_eq_ok ..).mpr ⟨by decide, by decide, by decide +kernel, rfl⟩
  have hwire : visitorKey.wire = writeLP keyAlgoED25519 ++ writeLP visitorRaw := by decide +kernel
  have hlen : visitorRaw.length = 32 := by decide +kernel
  refine ⟨⟨_, _, hissue⟩, by decide +kernel, by decide +kernel, by decide +kernel, ?_, _, hwire,
    fun _ => ⟨_, hlen, rfl⟩⟩
  rintro p hp
  have hone : certificate.validPrincipals = [user] := rfl
  rw [hone] at hp
  rw [List.mem_singleton.mp hp]
  decide

theorem visitor_genuine : visitor.Genuine sampleHost signed {certificate} answerRecord := by
  have hident : caRaw ≠ sampleHost.identity := by decide +kernel
  have hca : ∀ ca, Signer.Sample.caKey.wire = ed25519Wire ca → ca ≠ sampleHost.identity := by
    rintro ca hwire rfl
    exact absurd hwire (by decide +kernel)
  refine ⟨fun pub hpub _ => ?_, fun msg sig hverify => ?_, fun ca msg sig hwire hverify => ?_⟩
  · have hb : visitor.buffer visitor.base64url (some (.str (ofBytes
        (Protocol.b64 sampleHost.identity)))) = some pub := hpub
    simp only [Node.buffer, visitor.base64url_b64, Option.some.injEq] at hb
    exact hb.symm
  · simp only [visitor, decide_eq_true_eq, hident.symm, false_and, or_false] at hverify
    obtain ⟨-, -, hmsg⟩ := hverify
    refine ⟨.hostRegistration registered, .inl rfl, ?_⟩
    cases hcanon : registered.canonical with
    | error e =>
      rw [hcanon] at hmsg
      cases hmsg
    | ok e =>
      rw [hcanon] at hmsg
      cases hmsg
      exact hcanon
  · simp only [visitor, decide_eq_true_eq, hca ca hwire, false_and, false_or] at hverify
    exact ⟨certificate, rfl, hverify.2.2⟩

end Sample

theorem node_lands_where_signed_sample :
    ∃ host cert, Sample.visitor.visit (ofBytes Signer.Sample.hostID)
      Sample.answerRecord Sample.answer Sample.visitorRaw 1700000000 = .ok (host, cert) ∧
    ∃ reg, .hostRegistration reg ∈ Agent.Sample.signed ∧ NodeLands Agent.Sample.sampleHost
      {Sample.certificate} reg host Sample.answer Sample.visitorRaw 1700000000 := by
  have hok : (Sample.visitor.visit (ofBytes Signer.Sample.hostID) Sample.answerRecord Sample.answer
      Sample.visitorRaw 1700000000).isOk = true := by decide +kernel
  have hca : Protocol.parseSSHPublicKey Signer.Sample.parsePublicKey
      (Protocol.publicSSHLine Signer.Sample.caKey) = .ok Signer.Sample.caKey := by decide +kernel
  have hid : Sample.visitor.idOf "h" Agent.Sample.sampleHost.identity =
      ofBytes Signer.Sample.hostID := by
    decide +kernel
  cases hvisit : Sample.visitor.visit (ofBytes Signer.Sample.hostID) Sample.answerRecord
    Sample.answer
      Sample.visitorRaw 1700000000 with
  | error e =>
    rw [hvisit] at hok
    cases hok
  | ok result =>
    exact ⟨result.1, result.2, rfl, node_lands_where_signed hid
      (Sample.readers Signer.Sample.registrationSignature (by decide +kernel)).ed25519 hca
      Agent.Sample.signable Sample.certificate_issued Sample.visitor_genuine hvisit⟩

end Grantd.Install
