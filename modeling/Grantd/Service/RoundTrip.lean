import Grantd.Service.Encoding
import Grantd.Service.Schema

/-!
# Records read back

What `serializeHostRegistration` and `serializeGrant` write is read back by
the parsers as the message it was written from, for every message that keeps
the rules of its schema. Every message that was parsed does.
-/

namespace Grantd.Service

open Base

theorem idRe_ofBytes (tag s : GoString) (n : Nat) :
    idRe (ofBytes tag) n (ofBytes s) = Protocol.matchesID tag n s := by
  have hdrop : (ofBytes s).drop (ofBytes tag).length = ofBytes (s.drop tag.length) := by
    simp only [ofBytes, List.map_drop, List.length_map]
  rw [idRe, hdrop, isPrefixOf_ofBytes, all_ofBytes (p := Protocol.isB32) (by decide +kernel)]
  simp only [ofBytes, List.length_map, Protocol.matchesID]

theorem hostIDRe_ofBytes (s : GoString) : hostIDRe (ofBytes s) = Protocol.validHostID s :=
  idRe_ofBytes _ s 32

theorem grantIDRe_ofBytes (s : GoString) : grantIDRe (ofBytes s) = Protocol.validGrantID s :=
  idRe_ofBytes _ s 16

theorem bytes_b64uEncode {o : Record} {key : JsString} (h : o.get key = some (.str (b64uEncode b)))
    (hlen : b.length = n) (hn : n ≠ 0) : bytes o key n = .ok b := by
  refine bytes_eq_ok.mpr ⟨_, h, b64uDecode_b64uEncode ?_, hlen⟩
  rintro rfl
  exact hn hlen.symm

/-- What `int` lets through. -/
def SafeNat (z : Int) : Prop := isSafeInteger (.integer z) = true ∧ 0 ≤ z

instance (z : Int) : Decidable (SafeNat z) := inferInstanceAs (Decidable (_ ∧ _))

structure HostRegistration.Valid (m : HostRegistration) : Prop where
  version : m.version = protocolVersion
  hostID : hostIDRe m.hostID = true
  hostIDLength : m.hostID.length ≤ 64
  identityPublicKey : m.identityPublicKey.length = 32
  sshCAPublicKey : m.sshCAPublicKey.length ≤ maxSshPubkeyBytes
  sshHostPublicKey : m.sshHostPublicKey.length ≤ maxSshPubkeyBytes
  sshHostKey : (parseSshEd25519Line m.sshHostPublicKey).isOk = true
  hostname : m.hostname.length ≤ maxHostnameBytes
  sshPort : SafeNat m.sshPort
  sshPortRange : (m.sshPort != 0 && m.sshPort ≤ 65535) = true
  sshUserLength : m.sshUser.length ≤ maxUsernameBytes
  sshUserRoot : (m.sshUser != js "root") = true
  sshUser : sshUserRe m.sshUser = true
  timestamp : SafeNat m.timestamp
  nonce : m.nonce.length = 16

theorem parseHostRegistration_valid (h : parseHostRegistration raw = .ok m) : m.Valid := by
  simp only [parseHostRegistration, bind_eq_ok, pure_eq_ok, checkVersion, ensure_eq_ok, beq_iff_eq,
    str_eq_ok, int_eq_ok, bytes_eq_ok] at h
  obtain ⟨_, -, v, ⟨-, hsafe⟩, hid, ⟨-, hidlen⟩, key, ⟨_, -, -, hkey⟩, ca, ⟨-, hca⟩, hk, ⟨-, hhk⟩,
    name, ⟨-, hname⟩, port, ⟨-, hport⟩, user, ⟨-, huser⟩, ts, ⟨-, hts⟩, nonce, ⟨_, -, -, hnonce⟩,
    _, hversion, _, hre, _, hrange, _, hroot, _, huserRe, _, hline, rfl⟩ := h
  exact ⟨hversion, hre, hidlen, hkey, hca, hhk, hline, hname, hport, hrange, huser, hroot, huserRe,
    hts, hnonce⟩

theorem parseHostRegistration_serialize (hm : m.Valid) :
    parseHostRegistration (some (.obj (serializeHostRegistration m))) = .ok m := by
  have hversion : SafeNat m.version := hm.version ▸ by decide
  simp only [parseHostRegistration, requireObject, bind_eq_ok, pure_eq_ok, checkVersion,
    ensure_eq_ok, beq_iff_eq]
  exact ⟨_, rfl, _, int_eq_ok.mpr ⟨rfl, hversion⟩, _, str_eq_ok.mpr ⟨rfl, hm.hostIDLength⟩,
    _, bytes_b64uEncode rfl hm.identityPublicKey (by decide),
    _, str_eq_ok.mpr ⟨rfl, hm.sshCAPublicKey⟩, _, str_eq_ok.mpr ⟨rfl, hm.sshHostPublicKey⟩,
    _, str_eq_ok.mpr ⟨rfl, hm.hostname⟩, _, int_eq_ok.mpr ⟨rfl, hm.sshPort⟩,
    _, str_eq_ok.mpr ⟨rfl, hm.sshUserLength⟩, _, int_eq_ok.mpr ⟨rfl, hm.timestamp⟩,
    _, bytes_b64uEncode rfl hm.nonce (by decide),
    (), hm.version, (), hm.hostID, (), hm.sshPortRange, (), hm.sshUserRoot, (), hm.sshUser,
    (), hm.sshHostKey, rfl⟩

structure Grant.Valid (m : Grant) : Prop where
  version : m.version = protocolVersion
  hostID : hostIDRe m.hostID = true
  hostIDLength : m.hostID.length ≤ 64
  grantID : grantIDRe m.grantID = true
  grantIDLength : m.grantID.length ≤ 64
  sshUser : m.sshUser.length ≤ maxUsernameBytes
  createdAt : SafeNat m.createdAt
  expiresAt : SafeNat m.expiresAt
  order : m.createdAt < m.expiresAt
  shortest : minGrantTTL ≤ m.expiresAt - m.createdAt
  longest : m.expiresAt - m.createdAt ≤ maxGrantTTL

theorem parseGrant_of_get {o : Record} (hm : m.Valid)
    (h : ∀ key ∈ (serializeGrant m).map Prod.fst, o.get key = (serializeGrant m).get key) :
    parseGrant (some (.obj o)) = .ok m := by
  have hversion : SafeNat m.version := hm.version ▸ by decide
  simp only [serializeGrant, List.map_cons, List.map_nil, List.forall_mem_cons] at h
  obtain ⟨hv, hhost, hgrant, huser, hcreated, hexpires, -⟩ := h
  simp only [parseGrant, requireObject, bind_eq_ok, pure_eq_ok, checkVersion, ensure_eq_ok,
    beq_iff_eq, decide_eq_true_eq]
  exact ⟨_, rfl, _, int_eq_ok.mpr ⟨hv, hversion⟩, _, str_eq_ok.mpr ⟨hhost, hm.hostIDLength⟩,
    _, str_eq_ok.mpr ⟨hgrant, hm.grantIDLength⟩, _, str_eq_ok.mpr ⟨huser, hm.sshUser⟩,
    _, int_eq_ok.mpr ⟨hcreated, hm.createdAt⟩, _, int_eq_ok.mpr ⟨hexpires, hm.expiresAt⟩,
    (), hm.version, (), hm.hostID, (), hm.grantID, (), hm.order, (), hm.shortest, (), hm.longest,
    rfl⟩

theorem parseGrant_serialize (hm : m.Valid) :
    parseGrant (some (.obj (serializeGrant m))) = .ok m :=
  parseGrant_of_get hm fun _ _ => rfl

end Grantd.Service
