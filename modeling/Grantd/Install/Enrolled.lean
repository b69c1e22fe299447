import Grantd.Agent.Handover
import Grantd.Install.Extract
import Grantd.Install.Node
import Grantd.Service.RoundTrip

/-!
# What an enrolled host signs, at its readers

The registration of an enrolled host goes to the service and from there to
three kinds of visitors, and each of the four has rules of its own for the
address, the user and the two keys. They agree with `Enroll` except on two
points, which the scripts alone are strict about: a host key that is the CA
key, and for the shell script a hostname that begins with a hyphen.
-/

namespace Grantd.Install

open Base Protocol
open Service (JsString Json Record ofBytes js)
open Canonical (writeLP)
open Signer (Enrolled HostRegisterRequest)
open JsonText (Flat Scalar)

-- ---------------------------------------------------------------------------
-- Characters
-- ---------------------------------------------------------------------------

/-- Stands as it is in a JSON text, and closes no object there. -/
def isFieldChar (c : UInt8) : Bool := JsonText.isPlain c && c != 0x7D

theorem all_fieldChar {p : UInt8 → Bool} {s : Bytes} (hs : s.all p = true)
    (hp : ((List.range 256).all fun n => !p (.ofNat n) || isFieldChar (.ofNat n)) = true) :
    s.all isFieldChar = true := by
  refine List.all_eq_true.mpr fun c hc => ?_
  have h := Code.forall_byte (p := fun c => !p c || isFieldChar c) hp c
  simpa [List.all_eq_true.mp hs c hc] using h

theorem fieldChar_ascii {s : Bytes} (h : s.all isFieldChar = true) : ∀ c ∈ s, c < 0x80 := by
  intro c hc
  have hp := List.all_eq_true.mp h c hc
  simp only [isFieldChar, Bool.and_eq_true] at hp
  exact JsonText.lt_of_isPlain hp.1

theorem text_of_fieldChar {s : Bytes} (h : s.all isFieldChar = true) : Canonical.Text s := by
  constructor
  · have hascii := fieldChar_ascii h
    clear h
    induction s with
    | nil => rfl
    | cons c s ih =>
      unfold Canonical.validString
      rw [if_pos (hascii c List.mem_cons_self)]
      exact ih fun d hd => hascii d (List.mem_cons_of_mem _ hd)
  · rw [List.contains_eq_mem, decide_eq_false_iff_not]
    exact fun hmem => absurd (List.all_eq_true.mp h _ hmem) (by decide)

theorem b64_fieldChar (b : Bytes) : (b64 b).all isFieldChar = true := by
  have h : ((b64URLAlphabet).all isFieldChar) = true := by decide
  exact List.all_eq_true.mpr fun c hc =>
    List.all_eq_true.mp h c (Rfc4648.mem_encode (by decide) hc)

theorem fieldChar_of_matchesID {s : GoString} (h : matchesID tag n s = true)
    (htag : tag.all isFieldChar = true) : s.all isFieldChar = true := by
  refine List.all_eq_true.mpr fun c hc => ?_
  rcases mem_of_matchesID h hc with hmem | hb32
  · exact List.all_eq_true.mp htag c hmem
  · have hbyte := Code.forall_byte (p := fun c => !isB32 c || isFieldChar c) (by decide +kernel) c
    simpa [hb32] using hbyte

theorem stdEncoding_fieldChar (b : Bytes) : (stdEncoding b).all isFieldChar = true := by
  have h : (b64Alphabet.all isFieldChar) = true := by decide
  rw [stdEncoding, List.all_append, Bool.and_eq_true]
  refine ⟨List.all_eq_true.mpr fun c hc =>
    List.all_eq_true.mp h c (Rfc4648.mem_encode (by decide) hc), ?_⟩
  rw [List.all_eq_true]
  intro c hc
  rw [List.eq_of_mem_replicate hc]
  decide

-- ---------------------------------------------------------------------------
-- Key lines
-- ---------------------------------------------------------------------------

def keyLine (raw : Bytes) : GoString := lit "ssh-ed25519 " ++ stdEncoding (ed25519Wire raw)

theorem keyLine_fieldChar (raw : Bytes) : (keyLine raw).all isFieldChar = true := by
  rw [keyLine, List.all_append, stdEncoding_fieldChar]
  decide

theorem ed25519Wire_eq (h : raw.length = 32) :
    ed25519Wire raw = [0, 0, 0, 11] ++ keyAlgoED25519 ++ [0, 0, 0, 32] ++ raw := by
  have halgo : writeLP keyAlgoED25519 = [0, 0, 0, 11] ++ keyAlgoED25519 := by decide
  have hraw : Canonical.u32be 32 = [0, 0, 0, 32] := by decide
  rw [ed25519Wire, halgo, writeLP, h, hraw]
  simp only [List.append_assoc]

theorem length_ed25519Wire (h : raw.length = 32) : (ed25519Wire raw).length = 51 := by
  have halgo : keyAlgoED25519.length = 11 := by decide
  simp [ed25519Wire_eq h, h, halgo]

theorem length_rawStdEncoding_wire (h : raw.length = 32) :
    (rawStdEncoding (ed25519Wire raw)).length = 68 := by
  simp [rawStdEncoding, Rfc4648.groups, length_ed25519Wire h]

theorem stdEncoding_wire (h : raw.length = 32) :
    stdEncoding (ed25519Wire raw) = rawStdEncoding (ed25519Wire raw) := by
  simp [stdEncoding, length_rawStdEncoding_wire h]

theorem length_keyLine (h : raw.length = 32) : (keyLine raw).length = 80 := by
  have hkind : (lit "ssh-ed25519 ").length = 12 := by decide
  simp [keyLine, stdEncoding_wire h, length_rawStdEncoding_wire h, hkind]

theorem splitOn_keyLine (raw : Bytes) : (ofBytes (keyLine raw)).splitOn 0x20 =
    [js "ssh-ed25519", ofBytes (stdEncoding (ed25519Wire raw))] := by
  have hline : ofBytes (keyLine raw) =
      [0x20].intercalate [js "ssh-ed25519", ofBytes (stdEncoding (ed25519Wire raw))] := by
    have hlit : ofBytes (lit "ssh-ed25519 ") = js "ssh-ed25519" ++ [0x20] := by decide
    rw [keyLine, ofBytes, List.map_append]
    simpa [ofBytes] using congrArg (· ++ ofBytes (stdEncoding (ed25519Wire raw))) hlit
  rw [hline]
  refine List.splitOn_intercalate _ ?_ (by simp)
  have hbody : 0x20 ∉ ofBytes (stdEncoding (ed25519Wire raw)) := by
    intro hmem
    obtain ⟨c, hc, hval⟩ := List.mem_map.mp hmem
    have h20 : c = 0x20 := UInt8.toUInt16_inj.mp hval
    exact space_notMem_stdEncoding _ (h20 ▸ hc)
  simpa using ⟨(by decide : (0x20 : UInt16) ∉ js "ssh-ed25519"), hbody⟩

theorem b64StdDecode_stdEncoding (hb : b ≠ []) :
    Service.b64StdDecode (ofBytes (stdEncoding b)) = some b := by
  have hchar : (b64Alphabet.all fun c => Service.isB64Char c.toUInt16) = true := by decide
  have hraw : ∀ c ∈ ofBytes (rawStdEncoding b), Service.isB64Char c = true := by
    intro c hc
    obtain ⟨x, hx, rfl⟩ := List.mem_map.mp hc
    exact List.all_eq_true.mp hchar x (Rfc4648.mem_encode (by decide) hx)
  have hlen : (rawStdEncoding b).length = (8 * b.length + 5) / 6 := by
    simp [rawStdEncoding, Rfc4648.groups]
  have hpos : b.length ≠ 0 := fun h => hb (List.length_eq_zero_iff.mp h)
  have hsplit : ofBytes (stdEncoding b) = ofBytes (rawStdEncoding b) ++
      List.replicate ((4 - (rawStdEncoding b).length % 4) % 4) 0x3D := by
    simp [stdEncoding, ofBytes]
  have hpad : Service.isB64Char 0x3D = false := by decide
  have htake : (List.replicate ((4 - (rawStdEncoding b).length % 4) % 4) 0x3D).takeWhile
      Service.isB64Char = [] := by
    cases (4 - (rawStdEncoding b).length % 4) % 4 with
    | zero => rfl
    | succ k => rw [List.replicate_succ, List.takeWhile_cons, hpad]; rfl
  have hdrop : (List.replicate ((4 - (rawStdEncoding b).length % 4) % 4) 0x3D).dropWhile
      Service.isB64Char = List.replicate ((4 - (rawStdEncoding b).length % 4) % 4) 0x3D := by
    cases (4 - (rawStdEncoding b).length % 4) % 4 with
    | zero => rfl
    | succ k => rw [List.replicate_succ, List.dropWhile_cons, hpad]; rfl
  have hre : Service.b64StdRe (ofBytes (stdEncoding b)) = true := by
    have hne : ofBytes (rawStdEncoding b) ≠ [] := by
      intro hnil
      have h0 := congrArg List.length hnil
      simp only [ofBytes, List.length_map, hlen, List.length_nil] at h0
      omega
    rw [Service.b64StdRe, hsplit, List.takeWhile_append_of_pos hraw,
      List.dropWhile_append_of_pos hraw, htake, hdrop, List.append_nil]
    simp only [Bool.and_eq_true, bne_iff_ne, ne_eq, hne, not_false_eq_true, true_and,
      List.length_replicate, decide_eq_true_eq]
    refine ⟨by omega, by simp⟩
  have hmod : (ofBytes (stdEncoding b)).length % 4 = 0 := by
    rw [hsplit, List.length_append, List.length_replicate, ofBytes, List.length_map]
    omega
  rw [Service.b64StdDecode, hre, hmod]
  exact Service.atob_btoa b

theorem parseSshEd25519Line_keyLine (h : raw.length = 32) :
    Service.parseSshEd25519Line (ofBytes (keyLine raw)) = .ok (ed25519Wire raw) := by
  have hwire := ed25519Wire_eq h
  have hne : ed25519Wire raw ≠ [] := by
    rw [hwire]
    simp
  have hlen := length_ed25519Wire h
  have hkind : Service.getUint32 (ed25519Wire raw) 0 = 11 ∧
      ((ed25519Wire raw).drop 4).take 11 = lit Service.sshEd25519 := by
    rw [hwire]
    exact ⟨rfl, rfl⟩
  have hsize : Service.getUint32 (ed25519Wire raw) 15 = 32 := by
    rw [hwire]
    rfl
  simp only [Service.parseSshEd25519Line, splitOn_keyLine, b64StdDecode_stdEncoding hne, bind_eq_ok,
    ensure_eq_ok, pure_eq_ok, hlen, hkind, hsize, Service.sshEd25519, beq_self_eq_true,
      Bool.and_self]
  exact ⟨(), trivial, (), trivial, (), trivial, (), trivial, trivial⟩

theorem keyReader_keyLine (N : Node) (h : raw.length = 32) (malformed otherType : String) :
    ∃ r, N.keyReader (ofBytes (keyLine raw)) malformed otherType = .ok r ∧
      ∃ r', r.string = some (raw, r') := by
  have htype := Reader.string_eq (r := ⟨ed25519Wire raw, 0⟩) (b := keyAlgoED25519) rfl (by decide)
  have hraw := Reader.string_eq (r := ⟨ed25519Wire raw, 0 + (4 + keyAlgoED25519.length)⟩) (b := raw)
    (htype.2.trans (List.append_nil _).symm) (by omega)
  have hutf8 : N.utf8 keyAlgoED25519 = js "ssh-ed25519" :=
    (N.utf8_eq (fieldChar_ascii (by decide : keyAlgoED25519.all isFieldChar = true))).mpr rfl
  refine ⟨_, ?_, _, hraw.1⟩
  simp only [Node.keyReader, splitOn_keyLine, N.base64_stdEncoding, bind_eq_ok, ensure_eq_ok,
    orThrow_eq_ok, pure_eq_ok, beq_iff_eq, true_and]
  exact ⟨(), _, htype.1, (), hutf8, rfl⟩

theorem keyLineRe_keyLine (h : raw.length = 32) :
    Shell.matchesRe Shell.keyLineRe (keyLine raw) = true := by
  have hnl : 0x0A ∉ keyLine raw := fun hmem =>
    absurd (List.all_eq_true.mp (keyLine_fieldChar raw) _ hmem) (by decide)
  have hne : keyLine raw ≠ [] := by
    intro hnil
    exact absurd (List.append_eq_nil_iff.mp hnil).1 (by decide)
  have hlen := length_rawStdEncoding_wire h
  have hbody : ∀ c ∈ rawStdEncoding (ed25519Wire raw), Shell.isB64 c = true := fun c hc =>
    decide_eq_true (Rfc4648.mem_encode (by decide) hc)
  have hpad := stdEncoding_wire h
  have hdrop : (keyLine raw).drop 12 = rawStdEncoding (ed25519Wire raw) := by
    rw [keyLine, hpad]
    exact List.drop_left' (by decide)
  have hprefix : (lit "ssh-ed25519 ").isPrefixOf (keyLine raw) = true := by
    rw [List.isPrefixOf_iff_prefix]
    exact List.prefix_append _ _
  have hrest : (rawStdEncoding (ed25519Wire raw)).dropWhile Shell.isB64 = [] := by
    exact List.dropWhile_eq_nil_iff.mpr hbody
  simp [Shell.matchesRe, Shell.lines_eq hnl, hne, Shell.keyLineRe, hdrop, hprefix, hrest, hlen]

-- ---------------------------------------------------------------------------
-- One registration in every form
-- ---------------------------------------------------------------------------

/-- The JSON form of a registration: `MarshalJSON` and `serializeHostRegistration`
write the same members. -/
def flat (m : HostRegistration) : Flat :=
  [(lit "version", .int m.version.toNat),
    (lit "host_id", .str m.hostID),
    (lit "identity_public_key", .str (b64 m.identityPublicKey)),
    (lit "ssh_ca_public_key", .str m.sshCAPublicKey),
    (lit "ssh_host_public_key", .str m.sshHostPublicKey),
    (lit "hostname", .str m.hostname),
    (lit "ssh_port", .int m.sshPort.toNat),
    (lit "ssh_user", .str m.sshUser),
    (lit "timestamp", .int m.timestamp.toInt),
    (lit "nonce", .str (b64 m.nonce))]

def scalarJson : Scalar → Json
  | .str s => .str (ofBytes s)
  | .int z => .num (.integer z)

/-- What `JSON.parse` makes of a flat ASCII text. -/
def json (o : Flat) : Record := o.map fun m => (ofBytes m.1, scalarJson m.2)

def served (m : HostRegistration) : Service.HostRegistration where
  version := m.version.toNat
  hostID := ofBytes m.hostID
  identityPublicKey := m.identityPublicKey
  sshCAPublicKey := ofBytes m.sshCAPublicKey
  sshHostPublicKey := ofBytes m.sshHostPublicKey
  hostname := ofBytes m.hostname
  sshPort := m.sshPort.toNat
  sshUser := ofBytes m.sshUser
  timestamp := m.timestamp.toInt
  nonce := m.nonce

theorem json_flat (m : HostRegistration) :
    json (flat m) = Service.serializeHostRegistration (served m) := by
  simp only [json, flat, List.map_cons, List.map_nil, scalarJson, Service.serializeHostRegistration,
    served, Service.b64uEncode_eq]
  rfl

/-- The record that the service gives out for a registration, as the value and
as the text of its last members. -/
structure Carries (req : HostRegisterRequest) (body : Record) (text : Bytes) : Prop where
  hostID : body.get (js "host_id") = some (.str (ofBytes req.registration.hostID))
  registration : body.get (js "registration") = some (.obj (json (flat req.registration)))
  signature : body.get (js "signature") = some (.str (ofBytes (b64 req.signature)))
  text : ∃ before, 0x0A ∉ before ∧
    text = Shell.recordText before (flat req.registration) (b64 req.signature)

/-- Every reader takes the registration, for the host id `id`. -/
structure TakenByAll (L : Agent.Library) (N : Node) (T : Shell.Tools) (id : GoString)
    (req : HostRegisterRequest) (body : Record) (text : Bytes) : Prop where
  service : ∃ m, Service.parseHostRegistration (some (.obj (json (flat req.registration)))) = .ok m
  agent : ∃ host, Agent.verifyHostRecord L id ⟨id, req.registration, req.signature⟩ = .ok host
  node : ∃ host, N.verifyHostRecord (ofBytes id) (.obj body) = .ok host
  shell : Shell.check T id (Shell.extract T text) = .ok ()

-- ---------------------------------------------------------------------------
-- The fields
-- ---------------------------------------------------------------------------

/-- The registration of an enrolled host, with the two keys by their raw
bytes. -/
structure Published (C : Crypto) (m : HostRegistration) (ca key : Bytes) : Prop where
  version : m.version = 1
  hostID : Protocol.hostID C m.identityPublicKey = .ok m.hostID
  caLine : m.sshCAPublicKey = keyLine ca ∧ ca.length = 32
  hostLine : m.sshHostPublicKey = keyLine key ∧ key.length = 32
  hostname : validateHostname m.hostname = .ok ()
  sshUser : validateSSHUser m.sshUser = .ok ()
  sshPort : validatePort m.sshPort = .ok ()
  timestamp : 0 ≤ m.timestamp ∧ m.timestamp.toInt < 2 ^ 53
  nonce : m.nonce.length = nonceLen

theorem hostnameRe_of_validate {name : GoString} (h : validateHostname name = .ok ()) :
    Protocol.hostnameRe name = true := by
  simp only [validateHostname, bind_eq_ok, ensure_eq_ok, Bool.and_eq_true] at h
  obtain ⟨_, -, _, -, hre, -⟩ := h
  exact hre

theorem usernameRe_of_validate {user : GoString} (h : validateSSHUser user = .ok ()) :
    usernameRe user = true := by
  simp only [validateSSHUser, bind_eq_ok, ensure_eq_ok] at h
  obtain ⟨_, -, _, -, _, hre, -⟩ := h
  exact hre

theorem port_of_validate {port : UInt64} (h : validatePort port = .ok ()) :
    1 ≤ port.toNat ∧ port.toNat ≤ 65535 := by
  simp only [validatePort, ensure_eq_ok, Bool.not_eq_true', Bool.or_eq_false_iff,
    beq_eq_false_iff_ne, decide_eq_false_iff_not] at h
  obtain ⟨hzero, hmax⟩ := h
  have hne : port.toNat ≠ 0 := fun h0 => hzero (UInt64.toNat_inj.mp h0)
  have hle : ¬ (65535 : UInt64).toNat < port.toNat :=
    fun hlt => hmax (UInt64.lt_iff_toNat_lt.mpr hlt)
  have h65535 : (65535 : UInt64).toNat = 65535 := rfl
  omega

def isUserChar (c : UInt8) : Bool := isLower c || isDigit c || c == 0x5F || c == 0x2D

theorem usernameRe_all (h : usernameRe user = true) : user.all isUserChar = true := by
  cases user with
  | nil => cases h
  | cons c cs =>
    simp only [usernameRe, Bool.and_eq_true, Bool.or_eq_true] at h
    obtain ⟨⟨hc, -⟩, hcs⟩ := h
    rw [List.all_cons, Bool.and_eq_true]
    refine ⟨?_, hcs⟩
    rcases hc with hc | hc
    · simp [isUserChar, hc]
    · simp [isUserChar, hc]

theorem fieldChar_of_user {user : GoString} (h : validateSSHUser user = .ok ()) :
    user.all isFieldChar = true :=
  all_fieldChar (usernameRe_all (usernameRe_of_validate h)) (by decide +kernel)

theorem fieldChar_of_hostname {name : GoString} (h : validateHostname name = .ok ()) :
    name.all isFieldChar = true := by
  have hre := hostnameRe_of_validate h
  simp only [Protocol.hostnameRe, Bool.and_eq_true] at hre
  have hlit : lit "._:[]-" = [0x2E, 0x5F, 0x3A, 0x5B, 0x5D, 0x2D] := by decide
  refine all_fieldChar hre.2 ?_
  simp only [isHostnameChar, hlit]
  decide +kernel

namespace Published

variable {C : Crypto} {m : HostRegistration} {ca key : Bytes}

theorem user_fieldChar (h : Published C m ca key) : m.sshUser.all isFieldChar = true :=
  fieldChar_of_user h.sshUser

theorem hostname_fieldChar (h : Published C m ca key) : m.hostname.all isFieldChar = true :=
  fieldChar_of_hostname h.hostname

theorem hostID_eq (h : Published C m ca key) :
    m.hostID = lit "h_" ++ b32 ((C.sha256 m.identityPublicKey).take 20) := by
  have hid := h.hostID
  simp only [Protocol.hostID, deriveID, Protocol.idMaterial, bind_eq_ok, ensure_eq_ok,
    pure_eq_ok] at hid
  obtain ⟨_, ⟨-, -, rfl⟩, hid⟩ := hid
  exact hid.symm

theorem hostID_fieldChar (h : Published C m ca key) : m.hostID.all isFieldChar = true :=
  fieldChar_of_matchesID (matchesID_deriveID C h.hostID) (by decide)

theorem caLine_fieldChar (h : Published C m ca key) : m.sshCAPublicKey.all isFieldChar = true :=
  h.caLine.1 ▸ keyLine_fieldChar ca

theorem hostLine_fieldChar (h : Published C m ca key) : m.sshHostPublicKey.all isFieldChar = true :=
  h.hostLine.1 ▸ keyLine_fieldChar key

theorem timestamp_eq (h : Published C m ca key) :
    (m.timestamp.toUInt64.toNat : Int) = m.timestamp.toInt := toNat_toUInt64 h.timestamp.1

end Published

-- ---------------------------------------------------------------------------
-- Patterns
-- ---------------------------------------------------------------------------

theorem sshUserRe_ofBytes (u : GoString) : Service.sshUserRe (ofBytes u) = usernameRe u := by
  cases u with
  | nil => rfl
  | cons c cs =>
    have hrest := Service.all_ofBytes (p := isUserChar) (q := Service.isUserChar)
      (by decide +kernel) cs
    have hstart := Service.all_ofBytes (p := fun c => isLower c || c == 0x5F)
      (q := Service.isUserStart)
      (by decide +kernel) [c]
    simp only [ofBytes, List.map_cons, List.map_nil, List.all_cons, List.all_nil,
      Bool.and_true] at hstart
    change (Service.isUserStart c.toUInt16 && decide ((ofBytes cs).length ≤ 31) &&
      (ofBytes cs).all Service.isUserChar) = _
    rw [hrest, hstart, ofBytes, List.length_map]
    rfl

theorem hostnameRe_ofBytes (name : GoString) :
    hostnameRe (ofBytes name) = Protocol.hostnameRe name := by
  have hlit : lit "._:[]-" = [0x2E, 0x5F, 0x3A, 0x5B, 0x5D, 0x2D] := by decide
  have hchars := Service.all_ofBytes (p := isHostnameChar) (q := fun c =>
    (0x41 ≤ c && c ≤ 0x5A) || (0x61 ≤ c && c ≤ 0x7A) || (0x30 ≤ c && c ≤ 0x39) ||
      c ∈ js "._:[]-") (by
      simp only [isHostnameChar, js, hlit]
      decide +kernel) name
  rw [hostnameRe, hchars, ofBytes, List.length_map]
  rfl

theorem Published.hostIDRe {C : Crypto} (h : Published C m ca key) :
    Service.hostIDRe (ofBytes m.hostID) = true := by
  rw [Service.hostIDRe_ofBytes]
  exact matchesID_deriveID C h.hostID

theorem safeNat {z : Int} (h : 0 ≤ z) (hmax : z < 2 ^ 53) : Service.SafeNat z := by
  refine ⟨?_, h⟩
  simp only [Service.isSafeInteger, Service.maxSafeInteger, Bool.and_eq_true]
  exact ⟨decide_eq_true (by omega), decide_eq_true (by omega)⟩

theorem Published.valid {C : Crypto} (h : Published C m ca key) : (served m).Valid := by
  have hport := port_of_validate h.sshPort
  have hident := length_of_deriveID C h.hostID
  have hid := length_of_matchesID (matchesID_deriveID C h.hostID)
  have hroot := (validateSSHUser_ok h.sshUser).2
  have hname := length_of_validateHostname h.hostname
  have huser := length_of_validateSSHUser h.sshUser
  have hts := h.timestamp_eq
  have hline := parseSshEd25519Line_keyLine h.hostLine.2
  exact {
    version := by rw [served, h.version]; rfl
    hostID := h.hostIDRe
    hostIDLength := by
      have htag : (lit "h_").length = 2 := rfl
      simp only [served, ofBytes, List.length_map]
      omega
    identityPublicKey := hident
    sshCAPublicKey := by
      simp only [served, ofBytes, List.length_map, h.caLine.1, length_keyLine h.caLine.2]
      decide
    sshHostPublicKey := by
      simp only [served, ofBytes, List.length_map, h.hostLine.1, length_keyLine h.hostLine.2]
      decide
    sshHostKey := by
      simp only [served, h.hostLine.1, hline]
      rfl
    hostname := (Nat.le_of_eq (List.length_map _)).trans hname
    sshPort := safeNat (by simp only [served]; omega) (by simp only [served]; omega)
    sshPortRange := by
      simp only [served, Bool.and_eq_true, bne_iff_ne]
      exact ⟨by omega, decide_eq_true (by omega)⟩
    sshUserLength := (Nat.le_of_eq (List.length_map _)).trans huser
    sshUserRoot := by
      simp only [served, bne_iff_ne]
      exact fun heq => hroot (Service.ofBytes_inj heq)
    sshUser := (sshUserRe_ofBytes _).trans (usernameRe_of_validate h.sshUser)
    timestamp := safeNat (by simp only [served]; omega) h.timestamp.2
    nonce := h.nonce }

-- ---------------------------------------------------------------------------
-- The scripts
-- ---------------------------------------------------------------------------

theorem Published.fits {C : Crypto} (h : Published C m ca key) :
    (RegValues.ofRegistration m).Fits := by
  have hident := length_of_deriveID C h.hostID
  have hid := length_of_matchesID (matchesID_deriveID C h.hostID)
  have htag : (lit "h_").length = 2 := rfl
  have hname := length_of_validateHostname h.hostname
  have huser := length_of_validateSSHUser h.sshUser
  simp only [publicKeySize, Protocol.maxHostnameBytes, Protocol.maxUsernameBytes]
    at hident hname huser
  refine ofRegistration_fits ?_
  simp only [Message.size, h.caLine.1, h.hostLine.1, length_keyLine h.caLine.2,
    length_keyLine h.hostLine.2, h.nonce, nonceLen]
  omega

theorem Published.reads {C : Crypto} (N : Node) (h : Published C m ca key) :
    N.Reads (some (.obj (json (flat m)))) (RegValues.ofRegistration m) := by
  have htext {b : Bytes} (hb : b.all isFieldChar = true) :
      N.buffer Service.textEncode (some (.str (ofBytes b))) = some b :=
    congrArg some (Service.textEncode_ofBytes (fieldChar_ascii hb))
  exact {
    version := rfl
    hostID := htext h.hostID_fieldChar
    sshCAPublicKey := htext h.caLine_fieldChar
    sshHostPublicKey := htext h.hostLine_fieldChar
    hostname := htext h.hostname_fieldChar
    sshPort := rfl
    sshUser := htext h.user_fieldChar
    timestamp := congrArg some h.timestamp_eq.symm
    nonce := congrArg some (N.base64url_b64 m.nonce) }

theorem Published.idOf {C : Crypto} {N : Node} (h : Published C m ca key)
    (hN : N.sha256 = C.sha256) :
    N.idOf "h" m.identityPublicKey = ofBytes m.hostID := by
  have htag : js "h" ++ js "_" = ofBytes (lit "h_") := by decide
  rw [Node.idOf, hN, htag, Service.base32Encode_eq, h.hostID_eq]
  exact List.map_append.symm

theorem Published.node_iff {C : Crypto} {N : Node} (h : Published C m ca key)
    (hsha : N.sha256 = C.sha256) (hed : N.ed25519Verify = C.ed25519Verify)
    (hcanon : m.canonical = .ok msg) (hverify : verify C m.identityPublicKey msg sig = true)
    (hbody : Carries ⟨m, sig⟩ body text) :
    (∃ host, N.verifyHostRecord (ofBytes m.hostID) (.obj body) = .ok host) ↔
      m.sshHostPublicKey ≠ m.sshCAPublicKey := by
  have hreg : prop (some (.obj body)) "registration" = some (.obj (json (flat m))) :=
    hbody.registration
  obtain ⟨-, rfl⟩ := canonical_eq_bytes hcanon
  simp only [verify, publicKeySize, signatureSize] at hverify
  obtain ⟨rca, hrca, hcaKey⟩ := keyReader_keyLine N h.caLine.2
    "the host record carries a malformed SSH CA key" "the SSH CA key is not ssh-ed25519"
  obtain ⟨rkey, hrkey, -⟩ := keyReader_keyLine N h.hostLine.2
    "the host record carries no usable SSH host key" "the SSH host key is not ssh-ed25519"
  rw [← h.caLine.1] at hrca
  rw [← h.hostLine.1] at hrkey
  have hport := port_of_validate h.sshPort
  constructor
  · rintro ⟨host, hhost⟩ heq
    have hv := verifyHostRecord_eq_ok.mp hhost
    obtain ⟨line, r, hline, -, -, hne⟩ := hv.caKey
    have hkey := hv.hostKey.1
    rw [hreg] at hline hkey
    have h1 : some (Json.str (ofBytes m.sshCAPublicKey)) = some (.str line) := hline
    have h2 : some (Json.str (ofBytes m.sshHostPublicKey)) = some (.str host.hostKeyLine) := hkey
    rw [heq, h1] at h2
    simp only [Option.some.injEq, Json.str.injEq] at h2
    exact hne h2.symm
  · intro hne
    refine ⟨⟨some (.str (ofBytes m.hostname)), some (.num (.integer m.sshPort.toNat)),
      some (.str (ofBytes m.sshUser)), ca, ofBytes m.sshHostPublicKey⟩,
        verifyHostRecord_eq_ok.mpr ?_⟩
    exact {
      version := by rw [hreg, flat, h.version]; rfl
      hostID := by rw [hreg]; rfl
      recordID := hbody.hostID
      signature := ⟨m.identityPublicKey, _, sig, by
          rw [hreg]
          exact congrArg some (N.base64url_b64 _),
        h.idOf hsha, by
          rw [hreg]
          exact canonical_eq_some.mpr ⟨_, h.fits, rfl, h.reads N, rfl⟩,
        (congrArg (N.buffer N.base64url) hbody.signature).trans
          (congrArg some (N.base64url_b64 _)), by
          rw [Node.verifyRaw, hed]
          exact hverify⟩
      user := ⟨by rw [hreg]; rfl, fun hroot => (validateSSHUser_ok h.sshUser).2
          (Service.ofBytes_inj (Json.str.inj (Option.some.inj hroot))),
        _, rfl, (sshUserRe_ofBytes _).trans (usernameRe_of_validate h.sshUser)⟩
      hostname := ⟨by rw [hreg]; rfl, _, rfl,
        (hostnameRe_ofBytes _).trans (hostnameRe_of_validate h.hostname)⟩
      port := ⟨by rw [hreg]; rfl, by
        simp only [isPort, Bool.and_eq_true]
        exact ⟨decide_eq_true (by omega), decide_eq_true (by omega)⟩⟩
      hostKey := ⟨by rw [hreg]; rfl, rkey, hrkey⟩
      caKey := ⟨ofBytes m.sshCAPublicKey, rca, by rw [hreg]; rfl, hrca, hcaKey,
        fun heq => hne (Service.ofBytes_inj heq)⟩ }

def shellVars (m : HostRegistration) (sig : Bytes) : Shell.Vars where
  regVersion := Decimal.text m.version.toNat
  regHostID := m.hostID
  regPubHex := Hex.ofBytes m.identityPublicKey
  caPub := m.sshCAPublicKey
  hostKey := m.sshHostPublicKey
  host := m.hostname
  port := Decimal.text m.sshPort.toNat
  user := m.sshUser
  regTS := Decimal.text m.timestamp.toUInt64.toNat
  regNonceHex := Hex.ofBytes m.nonce
  regSigHex := Hex.ofBytes sig

theorem Published.flat_isPlain {C : Crypto} (h : Published C m ca key) :
    (flat m).isPlain = true ∧ Shell.Flat.Inner (flat m) := by
  have hfield {b : Bytes} (hb : b.all isFieldChar = true) :
      b.all JsonText.isPlain = true ∧ 0x7D ∉ b := by
    refine ⟨List.all_eq_true.mpr fun c hc => ?_, fun hmem => ?_⟩
    · have hp := List.all_eq_true.mp hb c hc
      simp only [isFieldChar, Bool.and_eq_true] at hp
      exact hp.1
    · exact absurd (List.all_eq_true.mp hb _ hmem) (by decide)
  have hnames : ((flat m).all fun p => p.1.all isFieldChar) = true := by
    simp only [flat, List.all_cons, List.all_nil]
    decide
  have hstr : ∀ p ∈ flat m, ∀ s, p.2 = .str s → s.all isFieldChar = true := by
    simp only [flat, List.forall_mem_cons, Scalar.str.injEq, reduceCtorEq, false_implies,
      implies_true, forall_eq', true_and, h.hostID_fieldChar, h.caLine_fieldChar,
        h.hostLine_fieldChar,
      h.hostname_fieldChar, h.user_fieldChar, b64_fieldChar]
    simp
  constructor
  · refine List.all_eq_true.mpr fun p hp => ?_
    rw [Bool.and_eq_true]
    refine ⟨(hfield (List.all_eq_true.mp hnames p hp)).1, ?_⟩
    cases hv : p.2 with
    | str s => exact (hfield (hstr p hp s hv)).1
    | int z => rfl
  · exact fun p hp => ⟨(hfield (List.all_eq_true.mp hnames p hp)).2,
      fun s hs => (hfield (hstr p hp s hs)).2⟩

theorem Published.extract {C : Crypto} (T : Shell.Tools) (h : Published C m ca key)
    (hbody : Carries ⟨m, sig⟩ body text) : Shell.extract T text = shellVars m sig := by
  obtain ⟨before, hbefore, rfl⟩ := hbody.text
  obtain ⟨hplain, hinner⟩ := h.flat_isPlain
  have hsig : (b64 sig).all JsonText.isPlain = true := by
    refine List.all_eq_true.mpr fun c hc => ?_
    have hp := List.all_eq_true.mp (b64_fieldChar sig) c hc
    simp only [isFieldChar, Bool.and_eq_true] at hp
    exact hp.1
  have hstr (name : String) (hname : Shell.PlainKey name) (v : Bytes)
      (hv : (flat m).foldr (fun m found => found.or
        (if m.1 = lit name then Shell.strValue m.2 else none)) none = some v) :
      Shell.jsonStr ((flat m).membersText []) name = v := by
    rw [Shell.jsonStr_members hname hplain, hv]
    rfl
  have hnum (name : String) (hname : Shell.PlainKey name) (v : Bytes)
      (hv : (flat m).foldr (fun m found => found.or
        (if m.1 = lit name then Shell.numValue m.2 else none)) none = some v) :
      Shell.jsonNum ((flat m).membersText []) name = v := by
    rw [Shell.jsonNum_members hname hplain, hv]
    rfl
  have hts : (flat m).foldr (fun m found => found.or
      (if m.1 = lit "timestamp" then Shell.numValue m.2 else none)) none =
        some (Decimal.text m.timestamp.toUInt64.toNat) := by
    rw [flat, ← h.timestamp_eq]
    rfl
  simp only [Shell.extract, Shell.registrationText_record hplain hinner hsig hbefore,
    Shell.jsonStr_signature hplain hsig hbefore, Shell.b64uDecodeHex_b64]
  rw [hnum "version" (by decide) (Decimal.text m.version.toNat) rfl,
    hstr "host_id" (by decide) m.hostID rfl,
    hstr "identity_public_key" (by decide) (b64 m.identityPublicKey) rfl,
    hstr "ssh_ca_public_key" (by decide) m.sshCAPublicKey rfl,
    hstr "ssh_host_public_key" (by decide) m.sshHostPublicKey rfl,
    hstr "hostname" (by decide) m.hostname rfl,
    hnum "ssh_port" (by decide) (Decimal.text m.sshPort.toNat) rfl,
    hstr "ssh_user" (by decide) m.sshUser rfl, hnum "timestamp" (by decide) _ hts,
    hstr "nonce" (by decide) (b64 m.nonce) rfl, Shell.b64uDecodeHex_b64, Shell.b64uDecodeHex_b64]
  rfl

theorem shellVars_values {C : Crypto} (h : Published C m ca key) (sig : Bytes) :
    (shellVars m sig).values m.hostID m.identityPublicKey m.nonce = RegValues.ofRegistration m := by
  simp only [Shell.Vars.values, shellVars, RegValues.ofRegistration, h.version,
    Shell.printed_text m.sshPort.toNat_lt, Shell.printed_text m.timestamp.toUInt64.toNat_lt]
  rfl

theorem matchesRe_eq {p : Bytes → Bool} (h : s.all isFieldChar = true) (hp : p [] = false) :
    Shell.matchesRe p s = p s := by
  have hnl : 0x0A ∉ s := fun hmem => absurd (List.all_eq_true.mp h _ hmem) (by decide)
  rw [Shell.matchesRe, Shell.lines_eq hnl]
  by_cases hs : s = []
  · simp [hs, hp]
  · simp [hs]

theorem hostRe_iff {name : GoString} (h : Protocol.hostnameRe name = true) :
    Shell.hostRe name = true ↔ name.head? ≠ some 0x2D := by
  cases name with
  | nil => cases h
  | cons c rest =>
    simp only [Protocol.hostnameRe, Bool.and_eq_true, decide_eq_true_eq, List.all_cons,
      List.length_cons] at h
    obtain ⟨⟨-, hlen⟩, hc, hrest⟩ := h
    simp only [Shell.hostRe, hc, hrest, Bool.true_and, Bool.and_true, Bool.and_eq_true, bne_iff_ne,
      decide_eq_true_eq, List.head?_cons, ne_eq, Option.some.injEq]
    exact and_iff_left (by omega)

theorem portRe_text (h : n ≤ 65535) : Shell.portRe (Decimal.text n) = true := by
  have hlen : (Decimal.text n).length ≤ 5 := by
    rw [Decimal.text, List.length_map]
    exact (Nat.length_toDigits_le_iff (by decide) (by decide)).mpr (by omega)
  have hpos : 1 ≤ (Decimal.text n).length := List.length_pos_iff.mpr (Decimal.text_ne_nil n)
  simp only [Shell.portRe, hlen, hpos, decide_true, Bool.true_and]
  exact List.all_eq_true.mpr fun c hc => Decimal.isDigit_of_mem_text hc

theorem Published.shell_iff {C : Crypto} {T : Shell.Tools} (h : Published C m ca key)
    (hsha : T.sha256 = C.sha256) (hed : T.ed25519Verify = C.ed25519Verify)
    (hcanon : m.canonical = .ok msg) (hverify : verify C m.identityPublicKey msg sig = true)
    (hbody : Carries ⟨m, sig⟩ body text) :
    Shell.check T m.hostID (Shell.extract T text) = .ok () ↔
      m.sshHostPublicKey ≠ m.sshCAPublicKey ∧ m.hostname.head? ≠ some 0x2D := by
  obtain ⟨-, rfl⟩ := canonical_eq_bytes hcanon
  have hvalues := shellVars_values h sig
  have hcbe : (shellVars m sig).cbe m.hostID = Hex.ofBytes (RegValues.ofRegistration m).bytes :=
    hvalues ▸ Shell.cbe_eq rfl rfl (hvalues ▸ h.fits)
  have hport := port_of_validate h.sshPort
  have hid : Shell.hostIDOf T (Hex.ofBytes m.identityPublicKey) = m.hostID := by
    rw [Shell.hostIDOf_ofBytes, hsha, h.hostID_eq]
  have hca : Shell.matchesRe Shell.keyLineRe m.sshCAPublicKey = true :=
    h.caLine.1 ▸ keyLineRe_keyLine h.caLine.2
  have hkey : Shell.matchesRe Shell.keyLineRe m.sshHostPublicKey = true :=
    h.hostLine.1 ▸ keyLineRe_keyLine h.hostLine.2
  have hhost := hostRe_iff (hostnameRe_of_validate h.hostname)
  rw [← matchesRe_eq (p := Shell.hostRe) h.hostname_fieldChar rfl] at hhost
  have hdigits : Shell.matchesRe Shell.portRe (Decimal.text m.sshPort.toNat) = true := by
    have hfield : (Decimal.text m.sshPort.toNat).all isFieldChar = true :=
      all_fieldChar (p := Decimal.isDigit)
        (List.all_eq_true.mpr fun c hc => Decimal.isDigit_of_mem_text hc) (by decide +kernel)
    rw [matchesRe_eq hfield rfl]
    exact portRe_text hport.2
  have huser : Shell.matchesRe usernameRe m.sshUser = true :=
    (matchesRe_eq h.user_fieldChar rfl).trans (usernameRe_of_validate h.sshUser)
  have hsig : Shell.ed25519VerifyHex T (Hex.ofBytes m.identityPublicKey)
      ((shellVars m sig).cbe m.hostID) (Hex.ofBytes sig) = true := by
    simp only [verify, Bool.and_eq_true] at hverify
    rw [Shell.ed25519VerifyHex, hcbe, Shell.unhex_ofBytes, Shell.unhex_ofBytes,
      Shell.unhex_ofBytes, hed]
    exact hverify.2
  rw [h.extract T hbody]
  simp only [Shell.check, bind_eq_ok, ensure_eq_ok, beq_iff_eq, bne_iff_ne, Bool.and_eq_true]
  constructor
  · rintro ⟨_, -, _, -, _, -, _, -, _, -, _, hne, _, hname, -⟩
    exact ⟨hne, hhost.mp hname⟩
  · rintro ⟨hne, hname⟩
    have hversion : Decimal.text m.version.toNat = lit "1" := by
      rw [h.version]
      decide
    have hvalue := Decimal.value_text m.sshPort.toNat
    exact ⟨(), hversion, (), rfl, (), hid, (), hca, (), hkey, (), hne, (), hhost.mpr hname, (),
      ⟨⟨hdigits, decide_eq_true (hvalue ▸ hport.1)⟩, decide_eq_true (hvalue ▸ hport.2)⟩,
        (), huser, (),
      (validateSSHUser_ok h.sshUser).2, hsig⟩

-- ---------------------------------------------------------------------------
-- Enrollment
-- ---------------------------------------------------------------------------

/-- A key that x/crypto reads as ssh-ed25519 has 32 bytes behind its type. -/
def ReadsEd25519 (parsePublicKey : Bytes → Option SSHPublicKey) : Prop :=
  ∀ blob key, parsePublicKey blob = some key → key.type = keyAlgoED25519 →
    ∃ raw, raw.length = 32 ∧ key.wire = ed25519Wire raw

/-- The four readers use the signer's hash and signature scheme. -/
structure Readers (L : Agent.Library) (N : Node) (T : Shell.Tools) (S : Signer) : Prop where
  linked : Agent.Linked L S
  ed25519 : ReadsEd25519 S.parsePublicKey
  node : N.sha256 = S.crypto.sha256 ∧ N.ed25519Verify = S.crypto.ed25519Verify
  shell : T.sha256 = S.crypto.sha256 ∧ T.ed25519Verify = S.crypto.ed25519Verify

theorem keyLine_of_parse (h : ReadsEd25519 parsePublicKey)
    (hline : parseSSHPublicKey parsePublicKey line = .ok key) :
    ∃ raw, line = keyLine raw ∧ raw.length = 32 ∧ key.wire = ed25519Wire raw := by
  obtain ⟨-, ⟨blob, hblob⟩, htype, hpublic⟩ := parseSSHPublicKey_inv hline
  obtain ⟨raw, hraw, hwire⟩ := h blob key hblob htype
  refine ⟨raw, ?_, hraw, hwire⟩
  have hkind : lit "ssh-ed25519 " = keyAlgoED25519 ++ [0x20] := by decide
  rw [← hpublic, publicSSHLine, htype, hwire, keyLine, hkind, List.append_assoc]
  rfl

theorem Published.canonical {C : Crypto} (h : Published C m ca key) :
    ∃ msg, m.canonical = .ok msg := by
  have hport : m.sshPort ≤ Canonical.maxU64 := by
    have hp := port_of_validate h.sshPort
    have hmax : Canonical.maxU64.toNat = 2 ^ 63 - 1 := rfl
    rw [UInt64.le_iff_toNat_le]
    omega
  obtain ⟨msg, hmsg⟩ := (Canonical.encode_isOk ctxHostRegister
    [Canonical.U (lit "version") m.version, Canonical.S (lit "host_id") m.hostID,
      Canonical.B (lit "identity_public_key") m.identityPublicKey,
      Canonical.S (lit "ssh_ca_public_key") m.sshCAPublicKey,
      Canonical.S (lit "ssh_host_public_key") m.sshHostPublicKey,
      Canonical.S (lit "hostname") m.hostname, Canonical.U (lit "ssh_port") m.sshPort,
      Canonical.S (lit "ssh_user") m.sshUser, Canonical.U (lit "timestamp") m.timestamp.toUInt64,
      Canonical.B (lit "nonce") m.nonce]).mpr ⟨by decide, by decide, by
        simp +decide [Canonical.S_encodable, Canonical.U_encodable, Canonical.B_encodable,
          h.version, text_of_fieldChar h.hostID_fieldChar, text_of_fieldChar h.caLine_fieldChar,
          text_of_fieldChar h.hostLine_fieldChar, text_of_fieldChar h.hostname_fieldChar,
          text_of_fieldChar h.user_fieldChar, hport, toUInt64_le_maxU64 h.timestamp.1]⟩
  refine ⟨msg, ?_⟩
  simp only [HostRegistration.canonical, HostRegistration.fields, bind_eq_ok, pure_eq_ok, u64_eq_ok,
    Protocol.encode, mapError_eq_ok]
  exact ⟨_, ⟨_, ⟨h.timestamp.1, rfl⟩, rfl⟩, hmsg⟩

theorem enroll_row {S : Signer} {line : GoString}
    (h : S.enroll t user hostname port line s = (.ok (), s')) : ∃ host, s'.host = some host ∧
      Enrolled S host ∧ host.hostname = hostname ∧ host.sshHostPublicKey = line := by
  unfold Signer.enroll at h
  split at h
  · cases h
  · rename_i row hrow
    have he := Signer.enrollment_enrolled hrow
    simp only [Signer.enrollment, bind_eq_ok, pure_eq_ok] at hrow
    obtain ⟨_, -, _, -, _, -, _, -, _, -, id, -, rfl⟩ := hrow
    cases h
    unfold Signer.Store.setHost
    split
    · exact ⟨_, rfl, he, rfl, rfl⟩
    · exact ⟨_, rfl, ⟨he.hostID, he.sshUser, he.hostname, he.sshPort, he.hostKey⟩, rfl, rfl⟩

theorem Readers.published {S : Signer} (h : Readers L N T S) (hh : Enrolled S host)
    (hnow : 0 ≤ now ∧ now.toInt < 2 ^ 53) (hnonce : nonce.length = nonceLen) :
    ∃ ca key, Published S.crypto (S.registration host now nonce) ca key := by
  obtain ⟨ca, hca, hcaLen, -⟩ := keyLine_of_parse h.ed25519 h.linked.caKey
  obtain ⟨_, hkey⟩ := hh.hostKey
  obtain ⟨key, hkey, hkeyLen, -⟩ := keyLine_of_parse h.ed25519 hkey
  exact ⟨ca, key, rfl, hh.hostID, ⟨hca, hcaLen⟩, ⟨hkey, hkeyLen⟩, hh.hostname, hh.sshUser,
    hh.sshPort, hnow, hnonce⟩

namespace Sample

open Signer.Sample Agent.Sample

def registrar (signature : Bytes) : Signer := { sampleHost with sign := fun _ => signature }

/-- The decoders are exact on the texts of the sample. -/
def node : Node where
  sha256 := sha256
  ed25519Verify _ _ _ := true
  base64 s := (Service.atob s).getD []
  base64url s := (Service.b64uDecode s).getD []
  utf8 := ofBytes
  bufferOf _ := none
  bigIntOf _ := none
  stringOf _ := none
  base64_stdEncoding b := congrArg (Option.getD · []) (Service.atob_btoa b)
  base64url_b64 b := by
    rw [← Service.b64uEncode_eq]
    by_cases hb : b = []
    · subst hb
      rfl
    · rw [Service.b64uDecode_b64uEncode hb]
      rfl
  utf8_eq _ := ⟨Service.ofBytes_inj, congrArg ofBytes⟩

def tools : Shell.Tools where
  sha256 := sha256
  ed25519Verify _ _ _ := true
  base64 s := (Service.atob (ofBytes s)).getD []
  base64_stdEncoding b := congrArg (Option.getD · []) (Service.atob_btoa b)

theorem readers (signature : Bytes) (h : signature.length = signatureSize) :
    Readers (library (registrar signature) now) node tools (registrar signature) := by
  have hident : identity.length = publicKeySize := by decide +kernel
  have hca : parseSSHPublicKey parsePublicKey (publicSSHLine caKey) = .ok caKey := by decide +kernel
  refine ⟨⟨rfl, rfl, fun msg => ?_, hca⟩, fun blob key hkey _ => ?_, ⟨rfl, rfl⟩, ⟨rfl, rfl⟩⟩
  · have hverify : (identity.length == publicKeySize && signature.length == signatureSize && true) =
        true := by simp [hident, h]
    exact hverify
  · have hparse : parsePublicKey blob = some key := hkey
    simp only [parsePublicKey] at hparse
    split at hparse
    · rename_i hwire
      cases hparse
      have hraw : (blob.drop 19).length = 32 := by simp [hwire.2]
      exact ⟨blob.drop 19, hraw, rfl⟩
    · cases hparse

/-- The record of a registration, without the members no visitor reads. -/
def bodyOf (req : HostRegisterRequest) : Record :=
  [(js "host_id", .str (ofBytes req.registration.hostID)),
    (js "registration", .obj (json (flat req.registration))),
    (js "signature", .str (ofBytes (b64 req.signature)))]

def textOf (req : HostRegisterRequest) : Bytes :=
  Shell.recordText (lit "\x7b\"host_id\":\"" ++ req.registration.hostID ++ lit "\",")
    (flat req.registration)
    (b64 req.signature)

theorem carries (h : 0x0A ∉ req.registration.hostID) : Carries req (bodyOf req) (textOf req) := by
  refine ⟨rfl, rfl, rfl, _, ?_, rfl⟩
  have hnames : (0x0A : UInt8) ∉ lit "\x7b\"host_id\":\"" ∧ (0x0A : UInt8) ∉ lit "\"," := by decide
  simp [h, hnames]

def registration (signature : Bytes) (name line : GoString) : Option HostRegisterRequest :=
  match (registrar signature).enroll 1700000000 user name 22 line .empty with
  | (.ok (), s) => ((registrar signature).hostRegistration s.host 1700000000
      registrationNonce).toOption
  | _ => none

theorem registration_eq_some (h : registration signature name line = some req) : ∃ s,
    (registrar signature).enroll 1700000000 user name 22 line .empty = (.ok (), s) ∧
      (registrar signature).hostRegistration s.host 1700000000 registrationNonce = .ok req := by
  unfold registration at h
  split at h
  · rename_i s hs
    refine ⟨s, hs, ?_⟩
    cases hreq : (registrar signature).hostRegistration s.host 1700000000 registrationNonce with
    | error e =>
      rw [hreq] at h
      cases h
    | ok r =>
      rw [hreq] at h
      cases h
      rfl
  · cases h

def sameKeySignature : Bytes :=
  Signer.hex "a716fc86e805ecf9c9d9a771f570746eca3724ef19d57f5c9145d69ae7c8212b" ++
    Signer.hex "7440d9241074f576a71b9e559e1b655ac30a6c7db1cafc3b2187dcf00bee0d07"

def hyphenSignature : Bytes :=
  Signer.hex "04162c0b61ccc97a7ba71aae6a949ba0f3e182016ecf9365c0699f9021dbcae2" ++
    Signer.hex "29edd54ccd8eef192df452cd2e8fcd3d91ba14257ce1ac534df25e241edacd00"

def refusal : Except ε α → Option ε
  | .error e => some e
  | .ok _ => none

end Sample

/-- Every reader takes what an enrolled host signs, for the host's own id, unless
its host key is its CA key or its hostname begins with a hyphen. -/
theorem enrolled_taken_by_all_iff {S : Signer} {line : GoString} (hr : Readers L N T S)
    (henroll : S.enroll t user hostname port line s = (.ok (), s')) (hnow : now.toInt < 2 ^ 53)
    (hnonce : nonce.length = nonceLen) :
    (0 ≤ now → ∃ req, S.hostRegistration s'.host now nonce = .ok req) ∧
    ∀ req, S.hostRegistration s'.host now nonce = .ok req → ∀ body text, Carries req body text →
      (TakenByAll L N T req.registration.hostID req body text ↔
        line ≠ S.sshCAPublicKeyLine ∧ hostname.head? ≠ some 0x2D) := by
  obtain ⟨host, hhost, hh, rfl, rfl⟩ := enroll_row henroll
  obtain ⟨hostKey, hkey⟩ := hh.hostKey
  constructor
  · intro hpos
    obtain ⟨ca, key, hp⟩ := hr.published hh ⟨hpos, hnow⟩ hnonce
    obtain ⟨msg, hmsg⟩ := hp.canonical
    have hne : host.sshHostPublicKey ≠ [] := by
      have hlen := length_keyLine hp.hostLine.2
      rw [← hp.hostLine.1] at hlen
      intro hnil
      rw [show (S.registration host now nonce).sshHostPublicKey = [] from hnil] at hlen
      cases hlen
    exact ⟨_, Signer.hostRegistration_eq_ok.mpr ⟨host, msg, hhost, hne, hmsg, rfl⟩⟩
  · intro req hreq body text hbody
    obtain ⟨_, msg, hsome, -, hmsg, rfl⟩ := Signer.hostRegistration_eq_ok.mp hreq
    cases hhost.symm.trans hsome
    obtain ⟨ca, key, hp⟩ := hr.published hh ⟨(canonical_eq_bytes hmsg).1, hnow⟩ hnonce
    have hverify := hr.linked.verifies msg
    have hnode := hp.node_iff hr.node.1 hr.node.2 hmsg hverify hbody
    have hshell := hp.shell_iff hr.shell.1 hr.shell.2 hmsg hverify hbody
    constructor
    · intro h
      exact hshell.mp h.shell
    · intro hcond
      refine ⟨⟨_, json_flat _ ▸ Service.parseHostRegistration_serialize hp.valid⟩, ⟨⟨
        S.registration host now nonce, S.ca.publicKey, hostKey⟩,
          Agent.verifyHostRecord_eq_ok.mpr ?_⟩,
        hnode.mpr hcond.1, hshell.mpr hcond⟩
      exact {
        registration := rfl
        version := rfl
        hostID := rfl
        recordID := rfl
        identity := hr.linked.crypto ▸ hh.hostID
        signature := ⟨msg, hmsg, hr.linked.crypto ▸ hverify⟩
        hostname := hh.hostname
        sshUser := hh.sshUser
        sshPort := hh.sshPort
        caKey := hr.linked.parsePublicKey ▸ hr.linked.caKey
        hostKey := hr.linked.parsePublicKey ▸ hkey }

theorem enrolled_taken_by_all_sample :
    ∃ s', (Sample.registrar Signer.Sample.registrationSignature).enroll
    1700000000 Signer.Sample.user (lit "host.example") 22
      (publicSSHLine Signer.Sample.hostKey) .empty =
      (.ok (), s') ∧ ∃ req, (Sample.registrar Signer.Sample.registrationSignature).hostRegistration
        s'.host 1700000000 Signer.Sample.registrationNonce = .ok req ∧
    TakenByAll (Agent.Sample.library (Sample.registrar Signer.Sample.registrationSignature)
      Signer.Sample.now) Sample.node Sample.tools req.registration.hostID req (Sample.bodyOf req)
      (Sample.textOf req) := by
  have hsome : (Sample.registration Signer.Sample.registrationSignature (lit "host.example")
      (publicSSHLine Signer.Sample.hostKey)).any (fun req => 0x0A ∉ req.registration.hostID) =
        true := by
    decide +kernel
  obtain ⟨req, hreq, hnl⟩ := Option.any_eq_true .. |>.mp hsome
  obtain ⟨s', henroll, hreg⟩ := Sample.registration_eq_some hreq
  have h := (enrolled_taken_by_all_iff (Sample.readers _ (by decide +kernel)) henroll (by decide)
    (by decide)).2 req hreg _ _ (Sample.carries (of_decide_eq_true hnl))
  exact ⟨s', henroll, req, hreg, h.mpr ⟨by decide +kernel, by decide⟩⟩

/-- A host that was enrolled with its CA key as its host key is refused by the
Node client, and one whose name begins with a hyphen by the shell client. -/
theorem enrolled_refused_by_scripts :
    (∃ s' req, (Sample.registrar Sample.sameKeySignature).enroll 1700000000 Signer.Sample.user
        (lit "host.example") 22 (publicSSHLine Signer.Sample.caKey) .empty = (.ok (), s') ∧
      (Sample.registrar Sample.sameKeySignature).hostRegistration s'.host 1700000000
        Signer.Sample.registrationNonce = .ok req ∧
      Sample.refusal (Sample.node.verifyHostRecord (ofBytes req.registration.hostID)
        (.obj (Sample.bodyOf req))) =
        some (refuse "the host record uses its CA key as its host key")) ∧
    ∃ s' req, (Sample.registrar Sample.hyphenSignature).enroll 1700000000 Signer.Sample.user
        (lit "-host.example") 22 (publicSSHLine Signer.Sample.hostKey) .empty = (.ok (), s') ∧
      (Sample.registrar Sample.hyphenSignature).hostRegistration s'.host 1700000000
        Signer.Sample.registrationNonce = .ok req ∧
      Sample.refusal (Shell.check Sample.tools req.registration.hostID
        (Shell.extract Sample.tools (Sample.textOf req))) =
        some (lit "host record carries a malformed hostname") := by
  have hsame : (Sample.registration Sample.sameKeySignature (lit "host.example")
      (publicSSHLine Signer.Sample.caKey)).any (fun req =>
        Sample.refusal (Sample.node.verifyHostRecord (ofBytes req.registration.hostID)
          (.obj (Sample.bodyOf req))) ==
          some (refuse "the host record uses its CA key as its host key")) =
            true := by decide +kernel
  have hhyphen : (Sample.registration Sample.hyphenSignature (lit "-host.example")
      (publicSSHLine Signer.Sample.hostKey)).any (fun req =>
        Sample.refusal (Shell.check Sample.tools req.registration.hostID
          (Shell.extract Sample.tools (Sample.textOf req))) ==
          some (lit "host record carries a malformed hostname")) = true := by decide +kernel
  obtain ⟨req, hreq, hrefused⟩ := Option.any_eq_true .. |>.mp hsame
  obtain ⟨s, hs, hreg⟩ := Sample.registration_eq_some hreq
  obtain ⟨req', hreq', hrefused'⟩ := Option.any_eq_true .. |>.mp hhyphen
  obtain ⟨s', hs', hreg'⟩ := Sample.registration_eq_some hreq'
  exact ⟨⟨s, req, hs, hreg, beq_iff_eq.mp hrefused⟩, s', req', hs', hreg', beq_iff_eq.mp hrefused'⟩

end Grantd.Install
