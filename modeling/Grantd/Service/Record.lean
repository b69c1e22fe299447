import Grantd.Install.Agreement
import Grantd.Service.Object

/-!
# The record of a host

A registration is parsed, verified over its canonical bytes, written out again
and stored, next to columns of its own fields. Whatever happens at an object,
the stored text parses to a registration that its stored signature covers and
that the columns agree with. A visitor who reads the public record, in Go as
well as here, computes the bytes that were verified.
-/

namespace Grantd.Service

open Base Install

-- ---------------------------------------------------------------------------
-- What a visitor in Go reads
-- ---------------------------------------------------------------------------

/-- What Go's decoder makes of the JSON form of a registration. -/
def HostRegistration.go (m : HostRegistration) : Protocol.HostRegistration where
  version := .ofNat m.version.toNat
  hostID := textEncode m.hostID
  identityPublicKey := m.identityPublicKey
  sshCAPublicKey := textEncode m.sshCAPublicKey
  sshHostPublicKey := textEncode m.sshHostPublicKey
  hostname := textEncode m.hostname
  sshPort := .ofNat m.sshPort.toNat
  sshUser := textEncode m.sshUser
  timestamp := .ofNat m.timestamp.toNat
  nonce := m.nonce

def chars (s : JsString) : List Char := (codePoints s).map Char.ofNat

theorem toNat_chars (s : JsString) : (chars s).map Char.toNat = codePoints s := by
  rw [chars, List.map_map]
  refine (List.map_congr_left fun c hc => ?_).trans (List.map_id _)
  rw [Function.comp_apply, Char.ofNat, dif_pos (isValidChar_codePoints s c hc)]
  rfl

theorem goString_chars (s : JsString) : goString (chars s) = textEncode s := by
  rw [goString, textEncode, ← toNat_chars, List.flatMap_map]

/-- No lone surrogates. -/
def WellFormed (s : JsString) : Prop := (codePoints s).flatMap utf16 = s

theorem jsString_chars (h : WellFormed s) : jsString (chars s) = s := by
  rw [jsString, ← List.flatMap_map (f := Char.toNat), toNat_chars]
  exact h

theorem encodeString_wellFormed (h : encodeString name s = .ok b) : WellFormed s := by
  simp only [encodeString, bind_eq_ok, ensure_eq_ok, beq_iff_eq] at h
  obtain ⟨_, -, _, hround, -⟩ := h
  exact hround

theorem encodeFields_wellFormed {fs : List Field} (h : encodeFields fs = .ok b) :
    ∀ name value, .string name value ∈ fs → WellFormed value := by
  induction fs generalizing b with
  | nil => simp
  | cons f fs ih =>
    simp only [encodeFields, bind_eq_ok] at h
    obtain ⟨_, hf, _, hfs, -⟩ := h
    intro name value hmem
    rcases List.mem_cons.mp hmem with rfl | hmem
    · simp only [encodeField, encodeFieldValue, bind_eq_ok] at hf
      obtain ⟨_, -, _, -, _, ⟨_, hvalue, -⟩, -⟩ := hf
      exact encodeString_wellFormed hvalue
    · exact ih hfs name value hmem

theorem encode_wellFormed {fs : List Field} (h : encode context fs = .ok b) :
    ∀ name value, .string name value ∈ fs → WellFormed value := by
  simp only [encode, bind_eq_ok] at h
  obtain ⟨_, -, _, -, _, hfs, -⟩ := h
  exact encodeFields_wellFormed hfs

theorem encoded_chars {fs : List Field} (h : encode context fs = .ok b) (name value : JsString)
    (hmem : .string name value ∈ fs) : jsString (chars value) = value :=
  jsString_chars (encode_wellFormed h name value hmem)

/-- What the service encodes, Go encodes to the same bytes. -/
theorem canonical_of_ts {a : Assignment} (h : a.ts = some message) :
    ∃ m, a.message = some m ∧ m.canonical = .ok message := by
  have hgo := Assignment.go_eq_some.mpr (Assignment.ts_eq_some.mp h)
  simpa only [Assignment.go, Option.bind_eq_bind, Option.bind_eq_some_iff, toOption_eq_some]
    using hgo

def HostRegistration.assignment (m : HostRegistration) : Assignment :=
  .hostRegistration m.version.toNat (chars m.hostID) m.identityPublicKey (chars m.sshCAPublicKey)
    (chars m.sshHostPublicKey) (chars m.hostname) m.sshPort.toNat (chars m.sshUser)
    m.timestamp.toNat m.nonce

theorem HostRegistration.ts_assignment {m : HostRegistration} (hm : m.Valid)
    (h : canonicalHostRegistration m = .ok message) : m.assignment.ts = some message := by
  have hid := encoded_chars h (js "host_id") m.hostID (by simp [S])
  have hca := encoded_chars h (js "ssh_ca_public_key") m.sshCAPublicKey (by simp [S])
  have hkey := encoded_chars h (js "ssh_host_public_key") m.sshHostPublicKey (by simp [S])
  have hname := encoded_chars h (js "hostname") m.hostname (by simp [S])
  have huser := encoded_chars h (js "ssh_user") m.sshUser (by simp [S])
  have hversion : (m.version.toNat : Int) = m.version := by simp [hm.version, protocolVersion]
  have hport : (m.sshPort.toNat : Int) = m.sshPort := Int.toNat_of_nonneg hm.sshPort.2
  have hts : (m.timestamp.toNat : Int) = m.timestamp := Int.toNat_of_nonneg hm.timestamp.2
  simp only [assignment, Assignment.ts, hversion, hport, hts, hid, hca, hkey, hname, huser]
  exact toOption_eq_some.mpr h

theorem HostRegistration.go_canonical {m : HostRegistration} (hm : m.Valid)
    (h : canonicalHostRegistration m = .ok message) : m.go.canonical = .ok message := by
  obtain ⟨_, hmessage, hcanon⟩ := canonical_of_ts (ts_assignment hm h)
  simp only [assignment, Assignment.message, Option.bind_eq_bind, Option.bind_eq_some_iff,
    Option.pure_def, uint64_eq_some, int64_eq_some, goString_chars, Option.some.injEq] at hmessage
  obtain ⟨_, ⟨-, rfl⟩, _, ⟨-, rfl⟩, _, ⟨-, rfl⟩, rfl⟩ := hmessage
  exact hcanon

-- ---------------------------------------------------------------------------
-- What a row holds
-- ---------------------------------------------------------------------------

variable (C : Subtle)

/-- The registration `m` passes every check that does not look at a clock or a
table. -/
structure Certified (m : HostRegistration) (signature : Bytes) : Prop where
  valid : m.Valid
  derived : hostID C m.identityPublicKey = .ok m.hostID
  length : signature.length = 64
  verified : ∃ message, canonicalHostRegistration m = .ok message ∧
    verifyEd25519 C m.identityPublicKey message signature = true

structure Holds (row : HostRow) (m : HostRegistration) (signature : Bytes) : Prop where
  json : row.registrationJson = some (.obj (serializeHostRegistration m))
  signature : row.registrationSignature = some (b64uEncode signature)
  hostID : row.hostID = m.hostID
  identityPublicKey : row.identityPublicKey = b64uEncode m.identityPublicKey
  sshCAPublicKey : row.sshCAPublicKey = m.sshCAPublicKey
  hostname : row.hostname = m.hostname
  sshPort : row.sshPort = m.sshPort
  sshUser : row.sshUser = m.sshUser
  protocolVersion : row.protocolVersion = m.version

def Consistent (d : HostDO) : Prop :=
  ∀ row, d.host = some row → ∃ m signature, Certified C m signature ∧ Holds row m signature

variable {C}

theorem checkRegistration_certified
    (h : HostDO.checkRegistration C now body = .ok (m, signature)) : Certified C m signature := by
  have hderived := HostDO.checkRegistration_hostID C h
  simp only [HostDO.checkRegistration, HostDO.caught, HostDO.hidden, bind_eq_ok, ensure_eq_ok,
    pure_eq_ok, mapError_eq_ok, parseSignature, bytes_eq_ok] at h
  obtain ⟨_, hparse, _, ⟨_, -, -, hlen⟩, _, -, _, -, _, -, message, hmessage, _, hverify, hpair⟩ :=
    h
  cases hpair
  exact ⟨parseHostRegistration_valid hparse, hderived, hlen, message, hmessage, hverify⟩

theorem Certified.hostID_eq (h : Certified C m signature) (h' : Certified C m' signature')
    (hkey : b64uEncode m.identityPublicKey = b64uEncode m'.identityPublicKey) :
    m.hostID = m'.hostID := by
  have hne {m : HostRegistration} (hm : m.Valid) : m.identityPublicKey ≠ [] := fun hnil => by
    have hlen := hm.identityPublicKey
    simp [hnil] at hlen
  have hdec := congrArg b64uDecode hkey
  rw [b64uDecode_b64uEncode (hne h.valid), b64uDecode_b64uEncode (hne h'.valid),
    Option.some.injEq] at hdec
  have hsame := h'.derived
  rw [← hdec, h.derived] at hsame
  exact Except.ok.inj hsame

theorem holds_insertHost (m : HostRegistration) (signature : Bytes) (now : Int) :
    Holds (HostDO.insertHost m signature now) m signature :=
  ⟨rfl, rfl, rfl, rfl, rfl, rfl, rfl, rfl, rfl⟩

theorem Holds.updateHost {signature : Bytes} (hid : row.hostID = m.hostID)
    (hkey : row.identityPublicKey = b64uEncode m.identityPublicKey) :
    Holds (HostDO.updateHost m signature now row) m signature :=
  ⟨rfl, rfl, hid, hkey, rfl, rfl, rfl, rfl, rfl⟩

theorem Consistent.congr {d d' : HostDO} (hd : Consistent C d) (h : d'.host = d.host) :
    Consistent C d' :=
  fun row hrow => hd row (h ▸ hrow)

theorem Consistent.map {d d' : HostDO} {f : HostRow → HostRow} (hd : Consistent C d)
    (h : d'.host = d.host.map f)
    (hf : ∀ row m signature, Holds row m signature → Holds (f row) m signature) :
    Consistent C d' := by
  intro row hrow
  obtain ⟨row₀, hrow₀, rfl⟩ := Option.map_eq_some_iff.mp (h ▸ hrow)
  obtain ⟨m, signature, hm, hholds⟩ := hd row₀ hrow₀
  exact ⟨m, signature, hm, hf row₀ m signature hholds⟩

theorem Consistent.touch {d : HostDO} (hd : Consistent C d) : Consistent C (d.touch now) :=
  hd.map rfl fun _ _ _ h => { h with }

theorem Consistent.dnsSynced {d : HostDO} (hd : Consistent C d) :
    Consistent C (d.dnsSynced dnsName ip) :=
  hd.map rfl fun _ _ _ h => { h with }

theorem Consistent.register {d : HostDO} (hd : Consistent C d) :
    Consistent C (d.register C now body dnsName).2 := by
  rcases HostDO.register_cases C now body dnsName d with
    ⟨nonces, h⟩ | ⟨m, signature, nonces, hcheck, hkey, h⟩
  · rw [h]
    exact hd
  · rw [h]
    have hm := checkRegistration_certified hcheck
    intro row hrow
    cases hhost : d.host with
    | none =>
      rw [hhost] at hrow
      cases hrow
      exact ⟨m, signature, hm, holds_insertHost m signature now⟩
    | some existing =>
      rw [hhost] at hrow
      cases hrow
      obtain ⟨m₀, signature₀, hm₀, h₀⟩ := hd existing hhost
      have hkey₀ := hkey existing hhost
      have hid := hm₀.hostID_eq hm (h₀.identityPublicKey ▸ hkey₀)
      exact ⟨m, signature, hm, .updateHost (h₀.hostID.trans hid) hkey₀⟩

theorem Consistent.perform {d : HostDO} (hd : Consistent C d) (op : Operation) :
    Consistent C (d.perform C op) := by
  cases op with
  | pong now => exact hd.touch
  | dnsSynced dnsName ip => exact hd.dnsSynced
  | alarm now => exact hd.congr rfl
  | request env req =>
    cases req with
    | publicRecord | grantRecord => exact hd
    | register body => exact hd.register
    | rendezvous headers =>
      change Consistent C (d.rendezvous C env.now headers).2
      obtain ⟨nonces, h | h⟩ := HostDO.rendezvous_cases C env.now headers d
      · rw [h]
        exact hd
      · rw [h]
        exact Consistent.touch hd
    | publishGrant grantID body =>
      change Consistent C (d.publishGrant C env.now grantID body).2
      rcases HostDO.publishGrant_cases C env.now grantID body d with h | ⟨_, _, _, -, -, -, h⟩
      · rw [h]
        exact hd
      · rw [h]
        unfold HostDO.putGrant
        split <;> exact hd

theorem Consistent.reachable (hs : (lifetime C).Reachable ok s) : Consistent C s.object := by
  refine hs.invariant (I := fun s => Consistent C s.object) (fun s hinit row hrow => ?_) ?_
  · rw [show s.object = .empty from hinit] at hrow
    cases hrow
  · rintro s op t hd - hstep
    cases hstep
    exact hd.perform op

-- ---------------------------------------------------------------------------
-- Whose row it is
-- ---------------------------------------------------------------------------

theorem perform_owner {d : HostDO} (h : d.owner = some owner) (op : Operation) :
    (d.perform C op).owner = some owner := by
  rw [← h]
  cases op with
  | pong now => exact HostDO.owner_touch d
  | dnsSynced dnsName ip => exact HostDO.owner_dnsSynced d
  | alarm now => exact HostDO.owner_alarm d
  | request env req =>
    cases req with
    | publicRecord | grantRecord => rfl
    | rendezvous headers => exact HostDO.owner_rendezvous C d
    | publishGrant grantID body => exact HostDO.owner_publishGrant C d
    | register body =>
      rcases HostDO.owner_register C env.now body env.dnsName d with hsame | ⟨_, _, hnone, -⟩
      · exact hsame
      · rw [h] at hnone
        cases hnone

theorem run_owner (h : s.object.owner = some owner) (hrun : (lifetime C).Run ok s t) :
    t.object.owner = some owner := by
  induction hrun with
  | refl => exact h
  | step _ _ hstep ih =>
    cases hstep
    exact perform_owner ih _

theorem HostDO.owner_eq_some {d : HostDO} {id key : JsString} :
    d.owner = some (id, key) ↔ ∃ row, d.host = some row ∧ row.hostID = id ∧
      row.identityPublicKey = key := by
  simp [HostDO.owner, Option.map_eq_some_iff]

-- ---------------------------------------------------------------------------
-- What a visitor sees
-- ---------------------------------------------------------------------------

variable (C) in
/-- The stored registration is `m`, its signature is good, and the columns are
those of `m`. -/
structure HostRow.Verifies (row : HostRow) (m : HostRegistration) (signature message : Bytes) :
    Prop where
  parsed : ∃ json, row.registrationJson = some json ∧ parseHostRegistration (some json) = .ok m
  decoded : ∃ text, row.registrationSignature = some text ∧ b64uDecode text = some signature
  canonical : canonicalHostRegistration m = .ok message
  canonicalGo : m.go.canonical = .ok message
  verified : verifyEd25519 C m.identityPublicKey message signature = true
  derived : Service.hostID C m.identityPublicKey = .ok m.hostID
  hostID : row.hostID = m.hostID
  identityPublicKey : row.identityPublicKey = b64uEncode m.identityPublicKey
  sshCAPublicKey : row.sshCAPublicKey = m.sshCAPublicKey
  hostname : row.hostname = m.hostname
  sshPort : row.sshPort = m.sshPort
  sshUser : row.sshUser = m.sshUser
  protocolVersion : row.protocolVersion = m.version

structure Echoes (body : Record) (m : HostRegistration) (signature : Bytes) : Prop where
  registration : parseHostRegistration (body.get (js "registration")) = .ok m
  signature : parseSignature body = .ok signature
  hostID : body.get (js "host_id") = some (.str m.hostID)
  identityPublicKey :
    body.get (js "identity_public_key") = some (.str (b64uEncode m.identityPublicKey))
  sshCAPublicKey : body.get (js "ssh_ca_public_key") = some (.str m.sshCAPublicKey)
  hostname : body.get (js "hostname") = some (.str m.hostname)
  sshPort : body.get (js "ssh_port") = some (.num (.integer m.sshPort))
  sshUser : body.get (js "ssh_user") = some (.str m.sshUser)
  protocolVersion : body.get (js "protocol_version") = some (.num (.integer m.version))

theorem Holds.verifies {signature : Bytes} (h : Holds row m signature)
    (hm : Certified C m signature) :
    ∃ message, row.Verifies C m signature message := by
  obtain ⟨message, hmessage, hverify⟩ := hm.verified
  have hne : signature ≠ [] := fun hnil => by
    have hlen := hm.length
    simp [hnil] at hlen
  exact ⟨message, ⟨_, h.json, parseHostRegistration_serialize hm.valid⟩,
    ⟨_, h.signature, b64uDecode_b64uEncode hne⟩, hmessage,
    HostRegistration.go_canonical hm.valid hmessage, hverify, hm.derived, h.hostID,
    h.identityPublicKey, h.sshCAPublicKey, h.hostname, h.sshPort, h.sshUser, h.protocolVersion⟩

theorem Holds.echoed {d : HostDO} {signature : Bytes} (h : Holds row m signature)
    (hm : Certified C m signature) (hrow : d.host = some row) (connected : Bool) :
    ∃ body, d.publicRecord connected = .json (.obj body) 200 ∧ Echoes body m signature := by
  simp only [HostDO.publicRecord, hrow, h.json, h.signature, h.hostID, h.identityPublicKey,
    h.sshCAPublicKey, h.hostname, h.sshPort, h.sshUser, h.protocolVersion]
  exact ⟨_, rfl, parseHostRegistration_serialize hm.valid,
    bytes_b64uEncode rfl hm.length (by decide), rfl, rfl, rfl, rfl, rfl, rfl, rfl⟩

/-- Whatever has happened at an object, its row verifies, and so does the
public record that echoes it. The key and the id of a row stay, and a
registration that is not accepted leaves the row alone. -/
theorem host_record_verifies (C : Subtle) (hs : (lifetime C).Reachable (fun _ _ => True) s) :
    (∀ row, s.object.host = some row → ∃ m signature message,
      row.Verifies C m signature message ∧
      (∀ connected, ∃ body, s.object.publicRecord connected = .json (.obj body) 200 ∧
        Echoes body m signature) ∧
      ∀ t, (lifetime C).Run (fun _ _ => True) s t → ∃ row', t.object.host = some row' ∧
        row'.hostID = row.hostID ∧ row'.identityPublicKey = row.identityPublicKey) ∧
    ∀ env body, (∀ reg updated, (fetch C env (.register body) s.object).1 ≠
        HostDO.registered reg updated env.dnsName) →
      (fetch C env (.register body) s.object).2.host = s.object.host := by
  refine ⟨fun row hrow => ?_, fun env body hrejected => ?_⟩
  · obtain ⟨m, signature, hm, h⟩ := Consistent.reachable hs row hrow
    obtain ⟨message, hverifies⟩ := h.verifies hm
    refine ⟨m, signature, message, hverifies, h.echoed hm hrow, fun t hrun => ?_⟩
    exact HostDO.owner_eq_some.mp (run_owner (HostDO.owner_eq_some.mpr ⟨row, hrow, rfl, rfl⟩) hrun)
  · simp only [fetch] at hrejected ⊢
    rcases HostDO.register_cases C env.now body env.dnsName s.object with
      ⟨nonces, h⟩ | ⟨reg, signature, nonces, -, -, h⟩
    · rw [h]
    · exact absurd (congrArg Prod.fst h) (hrejected reg _)

/-- A host that has registered, with a real key and a real signature. -/
theorem host_record_verifies_sample : ∃ s row m signature message,
    (lifetime Sample.ed25519.subtle).Reachable (fun _ _ => True) s ∧
    s.object.host = some row ∧ row.Verifies Sample.ed25519.subtle m signature message := by
  obtain ⟨s, hreach, hs⟩ := Sample.filled_zero Sample.ed25519
  have hreach' : (lifetime Sample.ed25519.subtle).Reachable (fun _ _ => True) s :=
    hreach.mono fun _ _ _ => trivial
  obtain ⟨m, signature, message, hverifies, -⟩ :=
    (host_record_verifies Sample.ed25519.subtle hreach').1 _ hs.host
  exact ⟨s, _, m, signature, message, hreach', hs.host, hverifies⟩

end Grantd.Service
