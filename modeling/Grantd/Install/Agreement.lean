import Grantd.Install.Redeem
import Grantd.Protocol.Messages
import Grantd.Service.Encoding
import Grantd.Service.Schema
import Grantd.Service.Text

/-!
# Three encoders, one encoding

A message schema is filled in with texts over Unicode scalar values, byte
strings and natural numbers, and handed to the Go signer, to the service and to
the visitor's script, each in its own types. The first two accept the same
assignments and write the same bytes. The script writes these as well, as long
as every length fits its prefix: where Go and the service let a length of 2^32
or more wrap, Node throws.
-/

namespace Grantd.Install

open Base Service
open Protocol (Message)
open Canonical (validString writeLP u32be maxU64)
open Code (bigEndian)

-- ---------------------------------------------------------------------------
-- Assignments
-- ---------------------------------------------------------------------------

inductive Value
  | text (s : List Char)
  | int (n : Nat)
  | blob (b : Bytes)
  deriving DecidableEq

/-- The five schemas, with a value for each field. -/
inductive Assignment
  | hostRegistration (version : Nat) (hostID : List Char) (identityPublicKey : Bytes)
      (sshCAPublicKey sshHostPublicKey hostname : List Char) (sshPort : Nat) (sshUser : List Char)
      (timestamp : Nat) (nonce : Bytes)
  | hostConnect (version : Nat) (hostID path : List Char) (timestamp : Nat) (nonce : Bytes)
  | grant (version : Nat) (hostID grantID sshUser : List Char) (createdAt expiresAt : Nat)
  | redemption (mac : Bool) (version : Nat) (hostID grantID agentID : List Char)
      (agentPublicKey : Bytes) (sshPublicKey : List Char) (timestamp : Nat) (nonce : Bytes)
  | agentRegistration (version : Nat) (agentID : List Char) (publicKey : Bytes)
      (challengeID powNonce : List Char) (timestamp : Nat)

def Assignment.context : Assignment → String
  | .hostRegistration .. => "grantd/v1/host-register"
  | .hostConnect .. => "grantd/v1/host-connect"
  | .grant .. => "grantd/v1/grant"
  | .redemption mac .. =>
    if mac then "grantd/v1/redemption-proof" else "grantd/v1/redemption-agent-sig"
  | .agentRegistration .. => "grantd/v1/agent-register"

def Assignment.fields : Assignment → List (String × Value)
  | .hostRegistration version hostID identityPublicKey sshCAPublicKey sshHostPublicKey
    hostname sshPort
      sshUser timestamp nonce =>
    [("version", .int version), ("host_id", .text hostID),
      ("identity_public_key", .blob identityPublicKey), ("ssh_ca_public_key", .text sshCAPublicKey),
      ("ssh_host_public_key", .text sshHostPublicKey), ("hostname", .text hostname),
      ("ssh_port", .int sshPort), ("ssh_user", .text sshUser), ("timestamp", .int timestamp),
      ("nonce", .blob nonce)]
  | .hostConnect version hostID path timestamp nonce =>
    [("version", .int version), ("host_id", .text hostID), ("path", .text path),
      ("timestamp", .int timestamp), ("nonce", .blob nonce)]
  | .grant version hostID grantID sshUser createdAt expiresAt =>
    [("version", .int version), ("host_id", .text hostID), ("grant_id", .text grantID),
      ("ssh_user", .text sshUser), ("created_at", .int createdAt), ("expires_at", .int expiresAt)]
  | .redemption _ version hostID grantID agentID agentPublicKey sshPublicKey timestamp nonce =>
    [("version", .int version), ("host_id", .text hostID), ("grant_id", .text grantID),
      ("agent_id", .text agentID), ("agent_public_key", .blob agentPublicKey),
      ("ssh_public_key", .text sshPublicKey), ("timestamp", .int timestamp), ("nonce", .blob nonce)]
  | .agentRegistration version agentID publicKey challengeID powNonce timestamp =>
    [("version", .int version), ("agent_id", .text agentID), ("public_key", .blob publicKey),
      ("challenge_id", .text challengeID), ("pow_nonce", .text powNonce),
      ("timestamp", .int timestamp)]

-- ---------------------------------------------------------------------------
-- The three programs
-- ---------------------------------------------------------------------------

/-- A Go `uint64` holds the numbers below 2^64, and no other. -/
def uint64 (n : Nat) : Option UInt64 := if n < 2 ^ 64 then some (.ofNat n) else none

def int64 (n : Nat) : Option Int64 := if n < 2 ^ 63 then some (.ofNat n) else none

/-- The Go message, if there is one with these values. -/
def Assignment.message : Assignment → Option Message
  | .hostRegistration version hostID identityPublicKey sshCAPublicKey sshHostPublicKey
    hostname sshPort
      sshUser timestamp nonce => do
    pure (.hostRegistration {
      version := ← uint64 version, hostID := goString hostID, identityPublicKey
      sshCAPublicKey := goString sshCAPublicKey, sshHostPublicKey := goString sshHostPublicKey
      hostname := goString hostname, sshPort := ← uint64 sshPort, sshUser := goString sshUser
      timestamp := ← int64 timestamp, nonce })
  | .hostConnect version hostID path timestamp nonce => do
    pure (.hostConnect {
      version := ← uint64 version, hostID := goString hostID, path := goString path
      timestamp := ← int64 timestamp, nonce })
  | .grant version hostID grantID sshUser createdAt expiresAt => do
    pure (.grant {
      version := ← uint64 version, hostID := goString hostID, grantID := goString grantID
      sshUser := goString sshUser, createdAt := ← int64 createdAt, expiresAt := ← int64 expiresAt })
  | .redemption mac version hostID grantID agentID agentPublicKey sshPublicKey timestamp nonce => do
    let m : Protocol.RedemptionPayload := {
      version := ← uint64 version, hostID := goString hostID, grantID := goString grantID
      agentID := goString agentID, agentPublicKey, sshPublicKey := goString sshPublicKey
      timestamp := ← int64 timestamp, nonce }
    pure (if mac then .redemptionMAC m else .redemptionSig m)
  | .agentRegistration version agentID publicKey challengeID powNonce timestamp => do
    pure (.agentRegistration {
      version := ← uint64 version, agentID := goString agentID, publicKey
      challengeID := goString challengeID, powNonce := goString powNonce
      timestamp := ← int64 timestamp })

def Assignment.go (a : Assignment) : Option Bytes := do
  let m ← a.message
  m.canonical.toOption

def Assignment.ts : Assignment → Option Bytes
  | .hostRegistration version hostID identityPublicKey sshCAPublicKey sshHostPublicKey
    hostname sshPort
      sshUser timestamp nonce =>
    (canonicalHostRegistration {
      version, hostID := jsString hostID, identityPublicKey
      sshCAPublicKey := jsString sshCAPublicKey, sshHostPublicKey := jsString sshHostPublicKey
      hostname := jsString hostname, sshPort, sshUser := jsString sshUser, timestamp
      nonce }).toOption
  | .hostConnect version hostID path timestamp nonce =>
    (canonicalHostConnect {
      version, hostID := jsString hostID, path := jsString path, timestamp, nonce }).toOption
  | .grant version hostID grantID sshUser createdAt expiresAt =>
    (canonicalGrant {
      version, hostID := jsString hostID, grantID := jsString grantID, sshUser := jsString sshUser
      createdAt, expiresAt }).toOption
  | .redemption mac version hostID grantID agentID agentPublicKey sshPublicKey timestamp nonce =>
    let m : Service.RedemptionPayload := {
      version, hostID := jsString hostID, grantID := jsString grantID, agentID := jsString agentID
      agentPublicKey, sshPublicKey := jsString sshPublicKey, timestamp, nonce }
    (if mac then canonicalRedemptionMac m else canonicalRedemptionSig m).toOption
  | .agentRegistration version agentID publicKey challengeID powNonce timestamp =>
    (canonicalAgentRegistration {
      version, agentID := jsString agentID, publicKey, challengeID := jsString challengeID
      powNonce := jsString powNonce, timestamp }).toOption

def nodeField : String × Value → Option Bytes
  | (name, .text s) => fString (js name) (jsString s)
  | (name, .int n) => fU64 (js name) n
  | (name, .blob b) => fBytes (js name) b

def Assignment.node (a : Assignment) : Option Bytes := do
  let fields ← a.fields.mapM nodeField
  cbe (js a.context) fields

-- ---------------------------------------------------------------------------
-- The encoding they share
-- ---------------------------------------------------------------------------

def Value.tag : Value → UInt8
  | .text _ => 0x01
  | .int _ => 0x02
  | .blob _ => 0x03

def Value.wire : Value → Bytes
  | .text s => goString s
  | .int n => bigEndian 8 n
  | .blob b => b

/-- Neither U+0000 nor a number past 2^63-1. -/
def Value.Sound : Value → Prop
  | .text s => ∀ c ∈ s, c.toNat ≠ 0
  | .int n => n ≤ 2 ^ 63 - 1
  | .blob _ => True

def Value.Short (v : Value) : Prop := v.wire.length < 2 ^ 32

instance (v : Value) : Decidable v.Short := inferInstanceAs (Decidable (_ < _))

def fieldBytes (f : String × Value) : Bytes := writeLP (lit f.1) ++ f.2.tag :: writeLP f.2.wire

def Assignment.bytes (a : Assignment) : Bytes :=
  writeLP (lit a.context) ++ u32be a.fields.length ++ a.fields.flatMap fieldBytes

def Plain (name : String) : Prop :=
  lit name ≠ [] ∧ (lit name).length < 2 ^ 32 ∧ ∀ c ∈ lit name, c ≠ 0 ∧ c < 0x80

instance (name : String) : Decidable (Plain name) :=
  decidable_of_iff (lit name ≠ [] ∧ (lit name).length < 2 ^ 32 ∧
    ((lit name).all fun c => c != 0 && c < 0x80) = true) (by
      simp only [Plain, List.all_eq_true, Bool.and_eq_true, bne_iff_ne, decide_eq_true_eq])

theorem Assignment.plain (a : Assignment) :
    Plain a.context ∧ (∀ f ∈ a.fields, Plain f.1) ∧ a.fields.length < 2 ^ 32 := by
  cases a with
  | redemption mac =>
    cases mac <;>
      simp only [Assignment.context, Assignment.fields, List.forall_mem_cons, List.length_cons,
        List.length_nil, List.not_mem_nil, false_imp_iff, implies_true, and_true] <;> decide
  | _ =>
    simp only [Assignment.context, Assignment.fields, List.forall_mem_cons, List.length_cons,
      List.length_nil, List.not_mem_nil, false_imp_iff, implies_true, and_true]
    decide

theorem Plain.validString (h : Plain name) : validString (lit name) = true := by
  obtain ⟨-, -, hascii⟩ := h
  generalize lit name = b at hascii
  induction b with
  | nil => rfl
  | cons c b ih =>
    rw [(read_one (hascii c (.head _)).2 b).1]
    exact ih fun d hd => hascii d (.tail _ hd)

theorem Plain.textEncode (h : Plain name) : textEncode (js name) = lit name :=
  textEncode_ofBytes fun c hc => (h.2.2 c hc).2

theorem Plain.encodeString (h : Plain name) (field : JsString) :
    encodeString field (js name) = .ok (lit name) := by
  have hnul : (js name).contains 0 = false := by
    rw [List.contains_eq_mem, decide_eq_false_iff_not]
    intro hmem
    obtain ⟨c, hc, hzero⟩ := List.mem_map.mp hmem
    have := congrArg UInt16.toNat hzero
    exact (h.2.2 c hc).1 (UInt8.toNat_inj.mp (by simpa using this))
  have hround : (codePoints (js name)).flatMap utf16 = js name := by
    have hsingle (c : UInt8) : utf16 c.toNat = [c.toUInt16] := by
      have hc := c.toNat_lt
      rw [utf16, if_pos (by omega)]
      congr 1
      exact UInt16.toNat_inj.mp (by simp)
    rw [js, codePoints_ofBytes, List.flatMap_map]
    simp only [hsingle, ofBytes, List.map_eq_flatMap]
  simp only [Service.encodeString, hnul, hround, h.textEncode, beq_self_eq_true]
  rfl

theorem encodeString_jsString (field : JsString) (s : List Char) :
    encodeString field (jsString s) = .ok v ↔ (Value.text s).Sound ∧ v = goString s := by
  have hround : (codePoints (jsString s)).flatMap utf16 = jsString s := by
    rw [codePoints_jsString, List.flatMap_map]
    rfl
  simp only [Service.encodeString, bind_eq_ok, ensure_eq_ok, pure_eq_ok, hround, beq_self_eq_true,
    textEncode_jsString, Bool.not_eq_true', List.contains_eq_mem, decide_eq_false_iff_not,
    (zero_mem_text s).2, Value.Sound, not_exists, not_and]
  constructor
  · rintro ⟨_, hnul, _, -, rfl⟩
    exact ⟨hnul, rfl⟩
  · rintro ⟨hnul, rfl⟩
    exact ⟨(), hnul, (), trivial, rfl⟩

-- ---------------------------------------------------------------------------
-- Go
-- ---------------------------------------------------------------------------

def goField : String × Value → Canonical.Field
  | (name, .text s) => Canonical.S (lit name) (goString s)
  | (name, .int n) => Canonical.U (lit name) (.ofNat n)
  | (name, .blob b) => Canonical.B (lit name) b

def Value.Held : Value → Prop
  | .int n => n < 2 ^ 64
  | _ => True

theorem goField_name (f : String × Value) : (goField f).name = lit f.1 := by
  obtain ⟨name, v⟩ := f
  cases v <;> rfl

theorem goField_tag (f : String × Value) : (goField f).tag = f.2.tag := by
  obtain ⟨name, v⟩ := f
  cases v <;> rfl

theorem encodeValue_goField {f : String × Value} (h : f.2.Held) :
    Canonical.encodeValue (goField f) = .ok v ↔ f.2.Sound ∧ v = f.2.wire := by
  obtain ⟨name, value⟩ := f
  cases value with
  | text s =>
    simp only [goField, Canonical.encodeValue, Canonical.S, if_true, bind_eq_ok, ensure_eq_ok,
      pure_eq_ok, validString_goString, List.contains_eq_mem, Bool.not_eq_true',
      decide_eq_false_iff_not, (zero_mem_text s).1, Value.Sound, Value.wire, not_exists, not_and]
    constructor
    · rintro ⟨_, -, _, hnul, rfl⟩
      exact ⟨hnul, rfl⟩
    · rintro ⟨hnul, rfl⟩
      exact ⟨(), trivial, (), hnul, rfl⟩
  | int n =>
    have hn : (UInt64.ofNat n).toNat = n := UInt64.toNat_ofNat_of_lt' h
    have hmax : Canonical.maxU64.toNat = 2 ^ 63 - 1 := rfl
    have hvalue : Canonical.encodeValue (goField (name, .int n)) = (do
        ensure (UInt64.ofNat n ≤ Canonical.maxU64) (.u64Range (lit name))
        pure (bigEndian 8 (UInt64.ofNat n).toNat)) := rfl
    simp only [hvalue, bind_eq_ok, ensure_eq_ok, pure_eq_ok, decide_eq_true_eq,
      UInt64.le_iff_toNat_le, hn, hmax, Value.Sound, Value.wire]
    constructor
    · rintro ⟨_, hle, rfl⟩
      exact ⟨hle, rfl⟩
    · rintro ⟨hle, rfl⟩
      exact ⟨(), hle, rfl⟩
  | blob b =>
    have hvalue : Canonical.encodeValue (goField (name, .blob b)) = pure b := rfl
    rw [hvalue, pure_eq_ok, eq_comm]
    exact ⟨fun h => ⟨trivial, h⟩, fun h => h.2⟩

theorem encodeFields_goField {fs : List (String × Value)} (i : Nat)
    (hplain : ∀ f ∈ fs, Plain f.1) (hheld : ∀ f ∈ fs, f.2.Held) :
    Canonical.encodeFields i (fs.map goField) = .ok e ↔
      (∀ f ∈ fs, f.2.Sound) ∧ e = fs.flatMap fieldBytes := by
  induction fs generalizing i e with
  | nil =>
    rw [List.map_nil, Canonical.encodeFields, pure_eq_ok, eq_comm]
    simp
  | cons f fs ih =>
    obtain ⟨hp, hplain⟩ := List.forall_mem_cons.mp hplain
    obtain ⟨hh, hheld⟩ := List.forall_mem_cons.mp hheld
    simp only [List.map_cons, Canonical.encodeFields, bind_eq_ok, ensure_eq_ok, pure_eq_ok,
      encodeValue_goField hh, ih (i + 1) hplain hheld, goField_name, goField_tag, bne_iff_ne,
      List.forall_mem_cons, List.flatMap_cons]
    constructor
    · rintro ⟨_, -, _, -, _, ⟨hs, rfl⟩, _, ⟨hrest, rfl⟩, rfl⟩
      exact ⟨⟨hs, hrest⟩, by simp [fieldBytes]⟩
    · rintro ⟨⟨hs, hrest⟩, rfl⟩
      exact ⟨(), hp.1, (), hp.validString, _, ⟨hs, rfl⟩, _, ⟨hrest, rfl⟩, by simp [fieldBytes]⟩

theorem encode_goField {a : Assignment} (hheld : ∀ f ∈ a.fields, f.2.Held) :
    Canonical.encode (lit a.context) (a.fields.map goField) = .ok e ↔
      (∀ f ∈ a.fields, f.2.Sound) ∧ e = a.bytes := by
  obtain ⟨hctx, hplain, -⟩ := a.plain
  simp only [Canonical.encode, bind_eq_ok, ensure_eq_ok, pure_eq_ok, bne_iff_ne,
    encodeFields_goField 0 hplain hheld, List.length_map]
  constructor
  · rintro ⟨_, -, _, -, _, ⟨hs, rfl⟩, rfl⟩
    exact ⟨hs, rfl⟩
  · rintro ⟨hs, rfl⟩
    exact ⟨(), hctx.1, (), hctx.validString, _, ⟨hs, rfl⟩, rfl⟩

theorem uint64_eq_some : uint64 n = some v ↔ n < 2 ^ 64 ∧ v = .ofNat n := by
  rw [uint64, Option.ite_none_right_eq_some, Option.some_inj, eq_comm]

theorem int64_eq_some : int64 n = some v ↔ n < 2 ^ 63 ∧ v = .ofNat n := by
  rw [int64, Option.ite_none_right_eq_some, Option.some_inj, eq_comm]

theorem u64_ofNat (h : n < 2 ^ 63) : Protocol.u64 (Int64.ofNat n) = .ok (UInt64.ofNat n) := by
  rw [Protocol.u64_eq_ok]
  refine ⟨?_, rfl⟩
  rw [Int64.le_iff_toInt_le, Int64.toInt_ofNat_of_lt h]
  simp

theorem Assignment.message_fields {a : Assignment} (h : a.message = some m) :
    m.context = lit a.context ∧ m.fields = .ok (a.fields.map goField) ∧
      ∀ f ∈ a.fields, f.2.Held := by
  cases a <;>
    simp only [Assignment.message, bind_pure_comp, Option.bind_eq_bind, Option.bind_eq_some_iff,
      Option.map_eq_map, Option.map_eq_some_iff, uint64_eq_some, int64_eq_some] at h
  case hostRegistration =>
    obtain ⟨_, ⟨hv, rfl⟩, _, ⟨hp, rfl⟩, _, ⟨ht, rfl⟩, rfl⟩ := h
    refine ⟨rfl, ?_, by simp [Assignment.fields, Value.Held]; omega⟩
    simp only [Message.fields, Protocol.HostRegistration.fields, u64_ofNat ht]
    rfl
  case grant =>
    obtain ⟨_, ⟨hv, rfl⟩, _, ⟨hc, rfl⟩, _, ⟨he, rfl⟩, rfl⟩ := h
    refine ⟨rfl, ?_, by simp [Assignment.fields, Value.Held]; omega⟩
    simp only [Message.fields, Protocol.Grant.fields, u64_ofNat hc, u64_ofNat he]
    rfl
  case redemption mac _ _ _ _ _ _ _ _ =>
    obtain ⟨_, ⟨hv, rfl⟩, _, ⟨ht, rfl⟩, rfl⟩ := h
    cases mac
    all_goals
      refine ⟨rfl, ?_, by simp [Assignment.fields, Value.Held]; omega⟩
      simp only [if_true, Bool.false_eq_true, if_false, Message.fields,
        Protocol.RedemptionPayload.fields, u64_ofNat ht]
      rfl
  all_goals
    obtain ⟨_, ⟨hv, rfl⟩, _, ⟨ht, rfl⟩, rfl⟩ := h
    refine ⟨rfl, ?_, by simp [Assignment.fields, Value.Held]; omega⟩
    simp only [Message.fields, Protocol.HostConnect.fields, Protocol.AgentRegistration.fields,
      u64_ofNat ht]
    rfl

theorem Assignment.message_isSome {a : Assignment} (h : ∀ f ∈ a.fields, f.2.Sound) :
    ∃ m, a.message = some m := by
  have hu {n : Nat} (hn : n ≤ 2 ^ 63 - 1) : uint64 n = some (.ofNat n) :=
    uint64_eq_some.mpr ⟨by omega, rfl⟩
  have hi {n : Nat} (hn : n ≤ 2 ^ 63 - 1) : int64 n = some (.ofNat n) :=
    int64_eq_some.mpr ⟨by omega, rfl⟩
  cases a <;>
    simp only [Assignment.fields, List.forall_mem_cons, Value.Sound] at h
  case hostRegistration =>
    obtain ⟨hv, -, -, -, -, -, hp, -, ht, -⟩ := h
    exact ⟨_, by simp only [Assignment.message, hu hv, hu hp, hi ht]; rfl⟩
  case hostConnect =>
    obtain ⟨hv, -, -, ht, -⟩ := h
    exact ⟨_, by simp only [Assignment.message, hu hv, hi ht]; rfl⟩
  case grant =>
    obtain ⟨hv, -, -, -, hc, he, -⟩ := h
    exact ⟨_, by simp only [Assignment.message, hu hv, hi hc, hi he]; rfl⟩
  case redemption =>
    obtain ⟨hv, -, -, -, -, -, ht, -⟩ := h
    exact ⟨_, by simp only [Assignment.message, hu hv, hi ht]; rfl⟩
  case agentRegistration =>
    obtain ⟨hv, -, -, -, -, ht, -⟩ := h
    exact ⟨_, by simp only [Assignment.message, hu hv, hi ht]; rfl⟩

theorem Assignment.go_eq_some {a : Assignment} :
    a.go = some e ↔ (∀ f ∈ a.fields, f.2.Sound) ∧ e = a.bytes := by
  have hcanon {m : Message} (hm : a.message = some m) :
      m.canonical = .ok e ↔ (∀ f ∈ a.fields, f.2.Sound) ∧ e = a.bytes := by
    obtain ⟨hctx, hfs, hheld⟩ := message_fields hm
    rw [Message.canonical_eq, hfs, hctx, ← encode_goField hheld]
    exact mapError_eq_ok _ _ _
  simp only [Assignment.go, Option.bind_eq_bind, Option.bind_eq_some_iff, toOption_eq_some]
  constructor
  · rintro ⟨m, hm, hok⟩
    exact (hcanon hm).mp hok
  · intro h
    obtain ⟨m, hm⟩ := message_isSome h.1
    exact ⟨m, hm, (hcanon hm).mpr h⟩

-- ---------------------------------------------------------------------------
-- The service
-- ---------------------------------------------------------------------------

def tsField : String × Value → Service.Field
  | (name, .text s) => Service.S name (jsString s)
  | (name, .int n) => Service.U name n
  | (name, .blob b) => Service.B name b

theorem encodeField_tsField {f : String × Value} (h : Plain f.1) :
    encodeField (tsField f) = .ok b ↔ f.2.Sound ∧ b = fieldBytes f := by
  obtain ⟨name, value⟩ := f
  have hname : js name ≠ [] := by
    simpa [js, ofBytes] using h.1
  cases value with
  | text s =>
    simp only [encodeField, tsField, Service.S, Field.name, Field.tag, encodeFieldValue, bind_eq_ok,
      ensure_eq_ok, pure_eq_ok, bne_iff_ne, h.encodeString, encodeString_jsString]
    constructor
    · rintro ⟨_, -, _, ⟨⟩, _, ⟨_, ⟨hs, rfl⟩, rfl⟩, rfl⟩
      exact ⟨hs, by simp [fieldBytes, Value.tag, Value.wire]⟩
    · rintro ⟨hs, rfl⟩
      exact ⟨(), hname, _, rfl, _, ⟨_, ⟨hs, rfl⟩, rfl⟩, by simp [fieldBytes, Value.tag, Value.wire]⟩
  | int n =>
    have hrange : (decide ((0 : Int) ≤ n) && decide ((n : Int) ≤ Service.maxU64)) = true ↔
        n ≤ 2 ^ 63 - 1 := by
      have hmax : Service.maxU64 = 2 ^ 63 - 1 := rfl
      rw [hmax, Bool.and_eq_true, decide_eq_true_eq, decide_eq_true_eq]
      omega
    simp only [encodeField, tsField, Service.U, Field.name, Field.tag, encodeFieldValue, bind_eq_ok,
      ensure_eq_ok, pure_eq_ok, bne_iff_ne, h.encodeString, hrange, Int.toNat_natCast]
    constructor
    · rintro ⟨_, -, _, ⟨⟩, _, ⟨_, hn, rfl⟩, rfl⟩
      exact ⟨hn, by simp [fieldBytes, Value.tag, Value.wire]⟩
    · rintro ⟨hn, rfl⟩
      exact ⟨(), hname, _, rfl, _, ⟨(), hn, rfl⟩, by simp [fieldBytes, Value.tag, Value.wire]⟩
  | blob v =>
    simp only [encodeField, tsField, Service.B, Field.name, Field.tag, encodeFieldValue, bind_eq_ok,
      ensure_eq_ok, pure_eq_ok, bne_iff_ne, h.encodeString]
    constructor
    · rintro ⟨_, -, _, ⟨⟩, _, rfl, rfl⟩
      exact ⟨trivial, by simp [fieldBytes, Value.tag, Value.wire]⟩
    · rintro ⟨-, rfl⟩
      exact ⟨(), hname, _, rfl, _, rfl, by simp [fieldBytes, Value.tag, Value.wire]⟩

theorem encodeFields_tsField {fs : List (String × Value)} (hplain : ∀ f ∈ fs, Plain f.1) :
    Service.encodeFields (fs.map tsField) = .ok e ↔
      (∀ f ∈ fs, f.2.Sound) ∧ e = fs.flatMap fieldBytes := by
  induction fs generalizing e with
  | nil =>
    rw [List.map_nil, Service.encodeFields, pure_eq_ok, eq_comm]
    simp
  | cons f fs ih =>
    obtain ⟨hp, hplain⟩ := List.forall_mem_cons.mp hplain
    simp only [List.map_cons, Service.encodeFields, bind_eq_ok, pure_eq_ok, encodeField_tsField hp,
      ih hplain, List.forall_mem_cons, List.flatMap_cons]
    constructor
    · rintro ⟨_, ⟨hs, rfl⟩, _, ⟨hrest, rfl⟩, rfl⟩
      exact ⟨⟨hs, hrest⟩, rfl⟩
    · rintro ⟨⟨hs, hrest⟩, rfl⟩
      exact ⟨_, ⟨hs, rfl⟩, _, ⟨hrest, rfl⟩, rfl⟩

theorem Assignment.ts_eq (a : Assignment) :
    a.ts = (Service.encode (js a.context) (a.fields.map tsField)).toOption := by
  cases a with
  | redemption mac => cases mac <;> rfl
  | _ => rfl

theorem Assignment.ts_eq_some {a : Assignment} :
    a.ts = some e ↔ (∀ f ∈ a.fields, f.2.Sound) ∧ e = a.bytes := by
  obtain ⟨hctx, hplain, -⟩ := a.plain
  have hne : js a.context ≠ [] := by
    simpa [js, ofBytes] using hctx.1
  rw [ts_eq, toOption_eq_some]
  simp only [Service.encode, bind_eq_ok, ensure_eq_ok, pure_eq_ok, bne_iff_ne, hctx.encodeString,
    encodeFields_tsField hplain, List.length_map]
  constructor
  · rintro ⟨_, -, _, ⟨⟩, _, ⟨hs, rfl⟩, rfl⟩
    exact ⟨hs, rfl⟩
  · rintro ⟨hs, rfl⟩
    exact ⟨(), hne, _, rfl, _, ⟨hs, rfl⟩, rfl⟩

-- ---------------------------------------------------------------------------
-- The script
-- ---------------------------------------------------------------------------

theorem nodeField_eq {f : String × Value} (hplain : Plain f.1) (hs : f.2.Sound) :
    nodeField f = if f.2.Short then some (fieldBytes f) else none := by
  obtain ⟨name, value⟩ := f
  have hname : lp (textEncode (js name)) = some (writeLP (lit name)) := by
    rw [hplain.textEncode, lp_eq, if_pos hplain.2.1]
  have hlp (b : Bytes) : (do
      pure ((← some (writeLP (lit name))) ++ [value.tag] ++ (← lp b))) =
      if b.length < 2 ^ 32 then some (writeLP (lit name) ++ value.tag :: writeLP b) else none := by
    rw [lp_eq]
    split <;> simp
  cases value with
  | text s =>
    simp only [nodeField, fString, hname, textEncode_jsString]
    exact hlp (goString s)
  | int n =>
    have hu : u64 n = some (bigEndian 8 n) := by
      have hn : n ≤ 2 ^ 63 - 1 := hs
      rw [u64, if_pos (by omega), Int.toNat_natCast]
    simp only [nodeField, fU64, hname, hu]
    exact hlp (bigEndian 8 n)
  | blob b =>
    simp only [nodeField, fBytes, hname]
    exact hlp b

theorem mapM_nodeField {fs : List (String × Value)} (hplain : ∀ f ∈ fs, Plain f.1)
    (hs : ∀ f ∈ fs, f.2.Sound) : fs.mapM nodeField =
      if ∀ f ∈ fs, f.2.Short then some (fs.map fieldBytes) else none := by
  induction fs with
  | nil => simp
  | cons f fs ih =>
    obtain ⟨hp, hplain⟩ := List.forall_mem_cons.mp hplain
    obtain ⟨hs, hsound⟩ := List.forall_mem_cons.mp hs
    have hcons (fs : List (String × Value)) : (∀ g ∈ f :: fs, g.2.Short) ↔
        f.2.Short ∧ ∀ g ∈ fs, g.2.Short := List.forall_mem_cons
    rw [List.mapM_cons, nodeField_eq hp hs, ih hplain hsound]
    by_cases hf : f.2.Short
    · by_cases hfs : ∀ f ∈ fs, f.2.Short
      · rw [if_pos hf, if_pos hfs, if_pos ((hcons _).mpr ⟨hf, hfs⟩)]
        rfl
      · rw [if_neg hfs, if_neg fun h => hfs ((hcons _).mp h).2]
        simp
    · rw [if_neg hf, if_neg fun h => hf ((hcons _).mp h).1]
      rfl

theorem Assignment.node_eq {a : Assignment} (hs : ∀ f ∈ a.fields, f.2.Sound) :
    a.node = if ∀ f ∈ a.fields, f.2.Short then some a.bytes else none := by
  obtain ⟨hctx, hplain, hcount⟩ := a.plain
  have hlp : lp (textEncode (js a.context)) = some (writeLP (lit a.context)) := by
    rw [hctx.textEncode, lp_eq, if_pos hctx.2.1]
  rw [node, mapM_nodeField hplain hs]
  split
  · simp [cbe, hlp, u32_eq hcount, Assignment.bytes, List.flatMap_def]
  · rfl

/-- The signer and the service refuse the same assignments, those with a U+0000
or a number past 2^63-1, and otherwise write the same bytes. The script writes
them too if every component's length fits its prefix, and throws if not. -/
theorem encoders_agree (a : Assignment) :
    a.go = a.ts ∧ (a.go = none ↔ ∃ f ∈ a.fields, ¬ f.2.Sound) ∧
    (∀ e, a.go = some e → a.node =
      if ∀ f ∈ a.fields, f.2.Short then some e else none) := by
  have heq : a.go = a.ts := Option.ext fun e => by
    rw [Assignment.go_eq_some, Assignment.ts_eq_some]
  refine ⟨heq, ?_, fun e he => ?_⟩
  · rw [Option.eq_none_iff_forall_ne_some]
    constructor
    · intro h
      by_contra hsound
      push Not at hsound
      exact h _ (Assignment.go_eq_some.mpr ⟨hsound, rfl⟩)
    · rintro ⟨f, hf, hsound⟩ e he
      exact hsound ((Assignment.go_eq_some.mp he).1 f hf)
  · obtain ⟨hs, rfl⟩ := Assignment.go_eq_some.mp he
    exact Assignment.node_eq hs

theorem node_eq_none {nonce : Bytes} (h : 2 ^ 32 ≤ nonce.length) :
    ∃ e, (Assignment.hostConnect 1 [] [] 0 nonce).go = some e ∧
      (Assignment.hostConnect 1 [] [] 0 nonce).ts = some e ∧
      (Assignment.hostConnect 1 [] [] 0 nonce).node = none := by
  have hs : ∀ f ∈ (Assignment.hostConnect 1 [] [] 0 nonce).fields, f.2.Sound := by
    simp [Assignment.fields, Value.Sound]
  refine ⟨_, Assignment.go_eq_some.mpr ⟨hs, rfl⟩, Assignment.ts_eq_some.mpr ⟨hs, rfl⟩, ?_⟩
  rw [Assignment.node_eq hs, if_neg]
  intro hshort
  have hnonce : nonce.length < 2 ^ 32 := hshort ("nonce", .blob nonce) (by simp [Assignment.fields])
  omega

/-- A rendezvous message whose nonce has 2^32 bytes: its length prefix wraps in
Go and in the service, and the script throws. -/
theorem long_nonce_diverges : ∃ e,
    (Assignment.hostConnect 1 [] [] 0 (List.replicate (2 ^ 32) 0)).go = some e ∧
    (Assignment.hostConnect 1 [] [] 0 (List.replicate (2 ^ 32) 0)).ts = some e ∧
    (Assignment.hostConnect 1 [] [] 0 (List.replicate (2 ^ 32) 0)).node = none :=
  node_eq_none (Nat.le_of_eq List.length_replicate.symm)

/-- A host name outside the Basic Multilingual Plane, in all three encoders. -/
theorem encoders_agree_astral : ∃ e,
    (Assignment.grant 1 [Char.ofNat 0x1F600] [] [] 1700000000 1700001800).go = some e ∧
    (Assignment.grant 1 [Char.ofNat 0x1F600] [] [] 1700000000 1700001800).ts = some e ∧
    (Assignment.grant 1 [Char.ofNat 0x1F600] [] [] 1700000000 1700001800).node = some e := by
  have hgo : (Assignment.grant 1 [Char.ofNat 0x1F600] [] [] 1700000000 1700001800).go.isSome =
      true := by
    decide +kernel
  obtain ⟨e, he⟩ := Option.isSome_iff_exists.mp hgo
  obtain ⟨heq, -, hnode⟩ :=
    encoders_agree (.grant 1 [Char.ofNat 0x1F600] [] [] 1700000000 1700001800)
  refine ⟨e, he, heq ▸ he, ?_⟩
  rw [hnode e he, if_pos (by decide +kernel)]

end Grantd.Install
