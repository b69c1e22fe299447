import Grantd.Signer.Records

/-!
# The bytes of a registration

The visitors' scripts put the canonical form of a host registration together
from ten values that nobody has checked yet. An encoding is its context and its
items, so a script whose bytes are those of a message the host signed has that
message's values.
-/

namespace Grantd.Install

open Base Protocol
open Canonical (Item writeLP u32be)
open Code (bigEndian UniquelyDecodable)

def encodeItems (context : Bytes) (items : List Item) : Bytes :=
  writeLP context ++ (u32be items.length ++ items.flatMap Item.bytes)

theorem encodeItems_decodable : UniquelyDecodable
    (fun p : Bytes × List Item => p.1.length < 2 ^ 32 ∧ p.2.length < 2 ^ 32 ∧ ∀ it ∈ p.2, it.Fits)
    (fun p => encodeItems p.1 p.2) :=
  Canonical.writeLP_decodable.append (Canonical.u32be_decodable.counted Canonical.item_decodable)

/-- The values a registration is written from, as bytes and numbers. -/
structure RegValues where
  version : Nat
  hostID : Bytes
  identityPublicKey : Bytes
  sshCAPublicKey : Bytes
  sshHostPublicKey : Bytes
  hostname : Bytes
  sshPort : Nat
  sshUser : Bytes
  timestamp : Nat
  nonce : Bytes
  deriving DecidableEq, Repr

def RegValues.items (v : RegValues) : List Item :=
  [(lit "version", Canonical.tagU64, bigEndian 8 v.version),
    (lit "host_id", Canonical.tagString, v.hostID),
    (lit "identity_public_key", Canonical.tagBytes, v.identityPublicKey),
    (lit "ssh_ca_public_key", Canonical.tagString, v.sshCAPublicKey),
    (lit "ssh_host_public_key", Canonical.tagString, v.sshHostPublicKey),
    (lit "hostname", Canonical.tagString, v.hostname),
    (lit "ssh_port", Canonical.tagU64, bigEndian 8 v.sshPort),
    (lit "ssh_user", Canonical.tagString, v.sshUser),
    (lit "timestamp", Canonical.tagU64, bigEndian 8 v.timestamp),
    (lit "nonce", Canonical.tagBytes, v.nonce)]

def RegValues.bytes (v : RegValues) : Bytes := encodeItems ctxHostRegister v.items

structure RegValues.Fits (v : RegValues) : Prop where
  version : v.version < 2 ^ 64
  hostID : v.hostID.length < 2 ^ 32
  identityPublicKey : v.identityPublicKey.length < 2 ^ 32
  sshCAPublicKey : v.sshCAPublicKey.length < 2 ^ 32
  sshHostPublicKey : v.sshHostPublicKey.length < 2 ^ 32
  hostname : v.hostname.length < 2 ^ 32
  sshPort : v.sshPort < 2 ^ 64
  sshUser : v.sshUser.length < 2 ^ 32
  timestamp : v.timestamp < 2 ^ 64
  nonce : v.nonce.length < 2 ^ 32

def RegValues.ofRegistration (m : HostRegistration) : RegValues where
  version := m.version.toNat
  hostID := m.hostID
  identityPublicKey := m.identityPublicKey
  sshCAPublicKey := m.sshCAPublicKey
  sshHostPublicKey := m.sshHostPublicKey
  hostname := m.hostname
  sshPort := m.sshPort.toNat
  sshUser := m.sshUser
  timestamp := m.timestamp.toUInt64.toNat
  nonce := m.nonce

theorem RegValues.items_fit {v : RegValues} (h : v.Fits) : ∀ it ∈ v.items, it.Fits := by
  have hnames : (lit "version").length < 2 ^ 32 ∧ (lit "host_id").length < 2 ^ 32 ∧
      (lit "identity_public_key").length < 2 ^ 32 ∧ (lit "ssh_ca_public_key").length < 2 ^ 32 ∧
      (lit "ssh_host_public_key").length < 2 ^ 32 ∧ (lit "hostname").length < 2 ^ 32 ∧
      (lit "ssh_port").length < 2 ^ 32 ∧ (lit "ssh_user").length < 2 ^ 32 ∧
      (lit "timestamp").length < 2 ^ 32 ∧ (lit "nonce").length < 2 ^ 32 := by decide
  obtain ⟨n1, n2, n3, n4, n5, n6, n7, n8, n9, n10⟩ := hnames
  simp only [RegValues.items, List.forall_mem_cons, Item.Fits, Code.length_bigEndian, n1, n2, n3,
    n4, n5, n6, n7, n8, n9, n10, h.hostID, h.identityPublicKey, h.sshCAPublicKey,
      h.sshHostPublicKey,
    h.hostname, h.sshUser, h.nonce, true_and, and_true]
  refine ⟨by decide, by decide, by decide, by simp⟩

theorem RegValues.items_inj {v w : RegValues} (hv : v.Fits) (hw : w.Fits)
    (h : v.items = w.items) : v = w := by
  simp only [RegValues.items, List.cons.injEq, Prod.mk.injEq, true_and, and_true] at h
  obtain ⟨h1, h2, h3, h4, h5, h6, h7, h8, h9, h10⟩ := h
  have hnum {a b : Nat} (ha : a < 2 ^ 64) (hb : b < 2 ^ 64) (hab : bigEndian 8 a = bigEndian 8 b) :
      a = b :=
    Code.bigEndian_inj (by simpa using ha) (by simpa using hb) hab
  cases v
  cases w
  simp only [RegValues.mk.injEq]
  exact ⟨hnum hv.version hw.version h1, h2, h3, h4, h5, h6, hnum hv.sshPort hw.sshPort h7, h8,
    hnum hv.timestamp hw.timestamp h9, h10⟩

theorem RegValues.bytes_inj {v w : RegValues} (hv : v.Fits) (hw : w.Fits)
    (h : v.bytes = w.bytes) : v = w := by
  have hdom (u : RegValues) (hu : u.Fits) : ctxHostRegister.length < 2 ^ 32 ∧
      u.items.length < 2 ^ 32 ∧ ∀ it ∈ u.items, it.Fits :=
    ⟨(by decide : ctxHostRegister.length < 2 ^ 32), (by decide : 10 < 2 ^ 32), items_fit hu⟩
  have hpair : (ctxHostRegister, v.items) = (ctxHostRegister, w.items) :=
    encodeItems_decodable.injective (hdom v hv) (hdom w hw) h
  exact items_inj hv hw (Prod.mk.inj hpair).2

-- ---------------------------------------------------------------------------
-- What the host signed
-- ---------------------------------------------------------------------------

theorem item_of_S {it : Item} (h : it.Of (Canonical.S name v)) :
    it = (name, Canonical.tagString, v) := by
  obtain ⟨hname, htag, hv⟩ := h
  simp only [Canonical.encodeValue, Canonical.S, if_true, bind_eq_ok, ensure_eq_ok,
    pure_eq_ok] at hv
  obtain ⟨_, -, _, -, hv⟩ := hv
  exact Prod.ext hname (Prod.ext htag hv.symm)

theorem item_of_U {it : Item} (h : it.Of (Canonical.U name v)) :
    it = (name, Canonical.tagU64, bigEndian 8 v.toNat) := by
  obtain ⟨hname, htag, hv⟩ := h
  have hne : Canonical.tagU64 ≠ Canonical.tagString := by decide
  simp only [Canonical.encodeValue, Canonical.U, hne, if_false, if_true, bind_eq_ok, ensure_eq_ok,
    pure_eq_ok] at hv
  obtain ⟨_, -, hv⟩ := hv
  exact Prod.ext hname (Prod.ext htag hv.symm)

theorem item_of_B {it : Item} (h : it.Of (Canonical.B name v)) :
    it = (name, Canonical.tagBytes, v) := by
  obtain ⟨hname, htag, hv⟩ := h
  have hne : Canonical.tagBytes ≠ Canonical.tagString := by decide
  have hne' : Canonical.tagBytes ≠ Canonical.tagU64 := by decide
  simp only [Canonical.encodeValue, Canonical.B, hne, hne', if_false, if_true, pure_eq_ok] at hv
  exact Prod.ext hname (Prod.ext htag hv.symm)

theorem canonical_eq_bytes (h : HostRegistration.canonical m = .ok e) :
    0 ≤ m.timestamp ∧ e = (RegValues.ofRegistration m).bytes := by
  simp only [HostRegistration.canonical, HostRegistration.fields, bind_eq_ok, pure_eq_ok, u64_eq_ok,
    Protocol.encode, mapError_eq_ok] at h
  obtain ⟨_, ⟨_, ⟨hts, rfl⟩, rfl⟩, henc⟩ := h
  refine ⟨hts, ?_⟩
  obtain ⟨items, rfl, hitems⟩ := Canonical.encode_items henc
  simp only [List.forall₂_cons_right_iff, List.forall₂_nil_right_iff] at hitems
  obtain ⟨i1, _, h1, ⟨i2, _, h2, ⟨i3, _, h3, ⟨i4, _, h4, ⟨i5, _, h5, ⟨i6, _, h6, ⟨i7, _, h7,
    ⟨i8, _, h8, ⟨i9, _, h9, ⟨i10, _, h10, rfl, rfl⟩, rfl⟩, rfl⟩, rfl⟩, rfl⟩, rfl⟩, rfl⟩, rfl⟩, rfl⟩,
    rfl⟩ := hitems
  rw [item_of_U h1, item_of_S h2, item_of_B h3, item_of_S h4, item_of_S h5, item_of_S h6,
    item_of_U h7, item_of_S h8, item_of_U h9, item_of_B h10]
  rfl

theorem ofRegistration_fits {m : HostRegistration}
    (h : (Message.hostRegistration m).size < 2 ^ 32) : (RegValues.ofRegistration m).Fits := by
  simp only [Message.size] at h
  exact {
    version := m.version.toNat_lt
    hostID := by simp only [RegValues.ofRegistration]; omega
    identityPublicKey := by simp only [RegValues.ofRegistration]; omega
    sshCAPublicKey := by simp only [RegValues.ofRegistration]; omega
    sshHostPublicKey := by simp only [RegValues.ofRegistration]; omega
    hostname := by simp only [RegValues.ofRegistration]; omega
    sshPort := m.sshPort.toNat_lt
    sshUser := by simp only [RegValues.ofRegistration]; omega
    timestamp := m.timestamp.toUInt64.toNat_lt
    nonce := by simp only [RegValues.ofRegistration]; omega }

theorem context_eq_hostRegister (h : Message.context m = ctxHostRegister) :
    ∃ reg, m = .hostRegistration reg := by
  cases m with
  | hostRegistration reg => exact ⟨reg, rfl⟩
  | _ => exact absurd h (of_decide_eq_false rfl)

theorem registration_of_bytes {v : RegValues} (hm : Message.canonical m = .ok v.bytes)
    (hsize : m.size < 2 ^ 32) (hv : v.Fits) :
    ∃ reg, m = .hostRegistration reg ∧ v = RegValues.ofRegistration reg := by
  have hcontext : m.context = ctxHostRegister := by
    rw [Message.canonical_eq] at hm
    simp only [bind_eq_ok, Protocol.encode, mapError_eq_ok] at hm
    obtain ⟨fs, -, henc⟩ := hm
    obtain ⟨items, hbytes, -⟩ := Canonical.encode_items henc
    have hlen := Nat.lt_of_le_of_lt m.length_context (by decide : 30 < 2 ^ 32)
    exact (Canonical.writeLP_decodable hlen (by decide) hbytes.symm).1
  obtain ⟨reg, rfl⟩ := context_eq_hostRegister hcontext
  refine ⟨reg, rfl, ?_⟩
  have hreg := ofRegistration_fits hsize
  obtain ⟨-, heq⟩ := canonical_eq_bytes hm
  exact RegValues.bytes_inj hv hreg heq

end Grantd.Install
