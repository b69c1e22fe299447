import Grantd.Install.Items
import Grantd.Install.Redeem
import Grantd.Service.Schema

/-!
# The Node client

install/redeem.mjs, from the answers of the service to the point where the key
files are written. The answers are any JSON values, and the script is as untyped
as they are: what `Buffer.from`, `BigInt` and `String` make of a value that is
not of the expected type is a parameter, and so are the lenient base64 decoders.
Buffers are read by offset, and a string that runs past the end is cut short.
-/

namespace Grantd.Install

open Base Service
open Code (bigEndian)

/-- A value of the script; `none` is `undefined`. -/
abbrev JsValue := Option Json

/-- What the script calls in Node. `none` is a thrown error. Standard and
base64url text of some bytes decodes to them, and ASCII text is its bytes. -/
structure Node where
  sha256 : Bytes → Bytes
  ed25519Verify (pub msg sig : Bytes) : Bool
  base64 : JsString → Bytes
  base64url : JsString → Bytes
  utf8 : Bytes → JsString
  bufferOf : Json → Option Bytes
  bigIntOf : Json → Option Int
  stringOf : JsValue → Option JsString
  base64_stdEncoding (b : Bytes) : base64 (ofBytes (Protocol.stdEncoding b)) = b
  base64url_b64 (b : Bytes) : base64url (ofBytes (Protocol.b64 b)) = b
  utf8_eq {a b : Bytes} (ha : ∀ c ∈ a, c < 0x80) : utf8 b = ofBytes a ↔ b = a

/-- How the script ends early: by its own error, or by one of the language.
`principals` is the error that names what it got and what it wants. -/
inductive Failure
  | error (message : JsString)
  | principals (got : List JsString) (want : JsString)
  | thrown
  deriving DecidableEq, Repr

def orThrow : Option α → Except Failure α
  | some a => pure a
  | none => throw .thrown

def refuse (message : String) : Failure := .error (js message)

-- ---------------------------------------------------------------------------
-- Values
-- ---------------------------------------------------------------------------

/-- A property. Nothing that is not an object has one of these names. -/
def prop (v : JsValue) (key : String) : JsValue :=
  match v with
  | some (.obj o) => Record.get o (js key)
  | _ => none

def truthy : JsValue → Bool
  | none | some .null | some (.bool false) | some (.num (.integer 0)) | some (.str []) => false
  | _ => true

/-- The operator `===`. Arrays and objects of two answers are never the same.
Two fractions count as equal, which no comparison of the script depends on. -/
def strictEq : JsValue → JsValue → Bool
  | none, none => true
  | some .null, some .null => true
  | some (.bool a), some (.bool b) => a == b
  | some (.num a), some (.num b) => a == b
  | some (.str a), some (.str b) => a == b
  | _, _ => false

section
variable (N : Node)

/-- `Buffer.from(v, encoding)`, which throws on what is neither text nor an
object. -/
def Node.buffer (decode : JsString → Bytes) : JsValue → Option Bytes
  | some (.str s) => some (decode s)
  | some (.arr items) => N.bufferOf (.arr items)
  | some (.obj o) => N.bufferOf (.obj o)
  | _ => none

def Node.bigInt : JsValue → Option Int
  | some (.num (.integer z)) => some z
  | some (.num .other) => none
  | some v => N.bigIntOf v
  | none => none

/-- `String(v)`, as a pattern sees it. -/
def Node.text : JsValue → Option JsString
  | some (.str s) => some s
  | v => N.stringOf v

def Node.verifyRaw (rawPub msg sig : Bytes) : Bool :=
  rawPub.length == 32 && sig.length == 64 && N.ed25519Verify rawPub msg sig

def Node.idOf (tag : String) (rawPub : Bytes) : JsString :=
  js tag ++ js "_" ++ base32Encode ((N.sha256 rawPub).take 20)

end

-- ---------------------------------------------------------------------------
-- sshReader
-- ---------------------------------------------------------------------------

structure Reader where
  buf : Bytes
  off : Nat := 0

namespace Reader

/-- `readUInt32BE` and `readBigUInt64BE`, which throw at the end. -/
def uint (n : Nat) (r : Reader) : Option (Nat × Reader) :=
  if r.off + n ≤ r.buf.length then
    some (((r.buf.drop r.off).take n).foldl (fun v x => v * 256 + x.toNat) 0,
      { r with off := r.off + n })
  else none

def u32 (r : Reader) : Option (Nat × Reader) := r.uint 4
def u64 (r : Reader) : Option (Nat × Reader) := r.uint 8

/-- `subarray` stops at the end of the buffer, the offset does not. -/
def string (r : Reader) : Option (Bytes × Reader) := do
  let (n, r) ← r.u32
  some ((r.buf.drop r.off).take n, { r with off := r.off + n })

/-- The loop over the principals; a string takes four bytes at least. -/
def strings : Nat → Reader → Option (List Bytes)
  | 0, _ => some []
  | fuel + 1, r =>
    if r.off < r.buf.length then do
      let (s, r) ← r.string
      let rest ← strings fuel r
      some (s :: rest)
    else some []

theorem foldl_bigEndian (w n acc : Nat) :
    (bigEndian w n).foldl (fun v x => v * 256 + x.toNat) acc = acc * 256 ^ w + n % 256 ^ w := by
  induction w generalizing acc with
  | zero => simp [bigEndian, Nat.mod_one]
  | succ w ih =>
    have hsplit : n % 256 ^ (w + 1) = n % 256 ^ w + n / 256 ^ w % 256 * 256 ^ w := by
      rw [Nat.pow_succ, Nat.mod_mul, Nat.mul_comm (256 ^ w)]
    rw [bigEndian, List.foldl_cons, ih, hsplit, UInt8.toNat_ofNat', Nat.add_mul, Nat.mul_assoc acc,
      Nat.mul_comm 256 (256 ^ w), ← Nat.pow_succ, Nat.add_assoc, Nat.add_comm (n % 256 ^ w)]

theorem uint_eq {r : Reader} (hn : 0 < n) (h : r.buf.drop r.off = bigEndian n v ++ rest)
    (hv : v < 256 ^ n) :
    r.uint n = some (v, { r with off := r.off + n }) ∧ r.buf.drop (r.off + n) = rest := by
  have hlen := congrArg List.length h
  simp only [List.length_drop, List.length_append, Code.length_bigEndian] at hlen
  have hdrop : r.buf.drop (r.off + n) = rest := by
    rw [← List.drop_drop, h]
    exact List.drop_left' Code.length_bigEndian
  refine ⟨?_, hdrop⟩
  rw [uint, if_pos (by omega), h, List.take_left' Code.length_bigEndian, foldl_bigEndian,
    Nat.mod_eq_of_lt hv, Nat.zero_mul, Nat.zero_add]

theorem string_eq {r : Reader} (h : r.buf.drop r.off = Canonical.writeLP b ++ rest)
    (hb : b.length < 2 ^ 32) : r.string = some (b, { r with off := r.off + (4 + b.length) }) ∧
      r.buf.drop (r.off + (4 + b.length)) = rest := by
  rw [Canonical.writeLP, Canonical.u32be, Nat.mod_eq_of_lt hb, List.append_assoc] at h
  obtain ⟨hread, hrest⟩ := uint_eq (by decide) h (by simpa using hb)
  have hdrop : r.buf.drop (r.off + (4 + b.length)) = rest := by
    rw [← Nat.add_assoc, ← List.drop_drop, hrest, List.drop_left]
  refine ⟨?_, hdrop⟩
  simp only [string, u32, hread, bind, Option.bind_some, hrest, List.take_left, Nat.add_assoc]

end Reader

-- ---------------------------------------------------------------------------
-- verifyHostRecord
-- ---------------------------------------------------------------------------

/-- The pattern `^[A-Za-z0-9._:[\]-]{1,253}$`. -/
def hostnameRe (s : JsString) : Bool :=
  decide (1 ≤ s.length) && decide (s.length ≤ 253) && s.all fun c =>
    (0x41 ≤ c && c ≤ 0x5A) || (0x61 ≤ c && c ≤ 0x7A) || (0x30 ≤ c && c ≤ 0x39) ||
      c ∈ js "._:[]-"

structure NodeHost where
  hostname : JsValue
  sshPort : JsValue
  sshUser : JsValue
  caKey : Bytes
  hostKeyLine : JsString

section
variable (N : Node)

def Node.fString (name : String) (v : JsValue) : Option Bytes := do
  pure ((← lp (textEncode (js name))) ++ [tagString] ++ (← lp (← N.buffer textEncode v)))

def Node.fU64 (name : String) (v : JsValue) : Option Bytes := do
  Install.fU64 (js name) (← N.bigInt v)

def Node.canonical (reg : JsValue) (identity : Bytes) : Option Bytes := do
  cbe (js "grantd/v1/host-register") [
    ← N.fU64 "version" (prop reg "version"),
    ← N.fString "host_id" (prop reg "host_id"),
    ← fBytes (js "identity_public_key") identity,
    ← N.fString "ssh_ca_public_key" (prop reg "ssh_ca_public_key"),
    ← N.fString "ssh_host_public_key" (prop reg "ssh_host_public_key"),
    ← N.fString "hostname" (prop reg "hostname"),
    ← N.fU64 "ssh_port" (prop reg "ssh_port"),
    ← N.fString "ssh_user" (prop reg "ssh_user"),
    ← N.fU64 "timestamp" (prop reg "timestamp"),
    ← fBytes (js "nonce") (← N.buffer N.base64url (prop reg "nonce"))]

def Node.keyReader (line : JsString) (malformed otherType : String) : Except Failure Reader :=
  match line.splitOn 0x20 with
  | [kind, body] => do
    ensure (kind == js "ssh-ed25519") (refuse malformed)
    let (type, r) ← orThrow (Reader.string ⟨N.base64 body, 0⟩)
    ensure (N.utf8 type == js "ssh-ed25519") (refuse otherType)
    pure r
  | _ => throw (refuse malformed)

def isPort : JsValue → Bool
  | some (.num (.integer z)) => 1 ≤ z && z ≤ 65535
  | _ => false

def Node.verifyHostRecord (hostID : JsString) (record : Json) : Except Failure NodeHost := do
  let reg := prop (some record) "registration"
  ensure (truthy reg) (refuse "the host record carries no signed registration")
  ensure (strictEq (prop reg "version") (some (.num (.integer 1))))
    (.error (js "host registration has protocol version " ++ (N.text (prop reg "version")).getD []))
  ensure (strictEq (prop reg "host_id") (some (.str hostID)) &&
      strictEq (prop (some record) "host_id") (some (.str hostID)))
    (refuse "the host record is for a different host")
  let identity ← orThrow (N.buffer N.base64url (prop reg "identity_public_key"))
  ensure (N.idOf "h" identity == hostID)
    (refuse "the host identity key does not match the host id")
  let canonical ← orThrow (N.canonical reg identity)
  let signature ← orThrow (N.buffer N.base64url (prop (some record) "signature"))
  ensure (N.verifyRaw identity canonical signature)
    (refuse "the host registration signature does not verify")
  let user ← orThrow (N.text (prop reg "ssh_user"))
  ensure (sshUserRe user && !strictEq (prop reg "ssh_user") (some (.str (js "root"))))
    (refuse "the host record names a bad user")
  let hostname ← orThrow (N.text (prop reg "hostname"))
  ensure (hostnameRe hostname) (refuse "the host record carries a malformed hostname")
  ensure (isPort (prop reg "ssh_port")) (refuse "the host record carries a bad port")
  -- Only a string has a method `split`.
  match prop reg "ssh_ca_public_key", prop reg "ssh_host_public_key" with
  | some (.str ca), hostKey => do
    let caReader ← N.keyReader ca "the host record carries a malformed SSH CA key"
      "the SSH CA key is not ssh-ed25519"
    match hostKey with
    | some (.str hostKey) =>
      let _ ← N.keyReader hostKey "the host record carries no usable SSH host key"
        "the SSH host key is not ssh-ed25519"
      ensure (hostKey != ca) (refuse "the host record uses its CA key as its host key")
      let (caKey, _) ← orThrow caReader.string
      pure { hostname := prop reg "hostname", sshPort := prop reg "ssh_port"
             sshUser := prop reg "ssh_user", caKey, hostKeyLine := hostKey }
    | _ => throw (refuse "the host record carries no usable SSH host key")
  | _, _ => throw .thrown

end

-- ---------------------------------------------------------------------------
-- The canonical form
-- ---------------------------------------------------------------------------

def SchemaName (name : String) : Prop :=
  textEncode (js name) = lit name ∧ (lit name).length < 2 ^ 32

instance (name : String) : Decidable (SchemaName name) := inferInstanceAs (Decidable (_ ∧ _))

theorem lp_eq_some : lp b = some out ↔ b.length < 2 ^ 32 ∧ out = Canonical.writeLP b := by
  rw [lp_eq]
  split
  · rename_i h
    simp only [h, true_and, Option.some.injEq]
    exact eq_comm
  · rename_i h
    simp only [h, false_and, reduceCtorEq]

theorem u64_eq_some : u64 z = some out ↔ ∃ n : Nat, z = n ∧ n < 2 ^ 64 ∧ out = bigEndian 8 n := by
  unfold u64
  split
  · rename_i h
    simp only [Option.some.injEq]
    constructor
    · rintro rfl
      exact ⟨z.toNat, by omega, by omega, rfl⟩
    · rintro ⟨n, rfl, -, rfl⟩
      rfl
  · rename_i h
    constructor
    · intro hnone
      cases hnone
    · rintro ⟨n, rfl, hn, -⟩
      exact absurd ⟨Int.natCast_nonneg n, by omega⟩ h

section
variable {N : Node} {name : String}

theorem fString_eq_some (hname : SchemaName name) : N.fString name v = some out ↔
    ∃ b, N.buffer textEncode v = some b ∧ b.length < 2 ^ 32 ∧
      out = Canonical.Item.bytes (lit name, Canonical.tagString, b) := by
  simp only [Node.fString, hname.1, bind, Option.bind_eq_some_iff, pure, Option.some.injEq,
    lp_eq_some, hname.2, true_and]
  constructor
  · rintro ⟨_, rfl, b, hb, _, ⟨hlen, rfl⟩, rfl⟩
    exact ⟨b, hb, hlen, by simp [Canonical.Item.bytes, tagString, Canonical.tagString]⟩
  · rintro ⟨b, hb, hlen, rfl⟩
    exact ⟨_, rfl, b, hb, _, ⟨hlen, rfl⟩, by
      simp [Canonical.Item.bytes, tagString, Canonical.tagString]⟩

theorem fU64_eq_some (hname : SchemaName name) : N.fU64 name v = some out ↔
    ∃ n : Nat, N.bigInt v = some (n : Int) ∧ n < 2 ^ 64 ∧
      out = Canonical.Item.bytes (lit name, Canonical.tagU64, bigEndian 8 n) := by
  have hlen (n : Nat) : (bigEndian 8 n).length < 2 ^ 32 := by
    rw [Code.length_bigEndian]
    decide
  simp only [Node.fU64, Install.fU64, hname.1, bind, Option.bind_eq_some_iff, pure,
    Option.some.injEq, lp_eq_some, u64_eq_some, hname.2, true_and]
  constructor
  · rintro ⟨_, hz, _, rfl, _, ⟨n, rfl, hn, rfl⟩, _, ⟨-, rfl⟩, rfl⟩
    exact ⟨n, hz, hn, by simp [Canonical.Item.bytes, tagU64, Canonical.tagU64]⟩
  · rintro ⟨n, hz, hn, rfl⟩
    exact ⟨n, hz, _, rfl, _, ⟨n, rfl, hn, rfl⟩, _, ⟨hlen n, rfl⟩, by
      simp [Canonical.Item.bytes, tagU64, Canonical.tagU64]⟩

theorem fBytes_eq_some (hname : SchemaName name) : fBytes (js name) b = some out ↔
    b.length < 2 ^ 32 ∧ out = Canonical.Item.bytes (lit name, Canonical.tagBytes, b) := by
  simp only [fBytes, hname.1, bind, Option.bind_eq_some_iff, pure, Option.some.injEq, lp_eq_some,
    hname.2, true_and]
  constructor
  · rintro ⟨_, rfl, _, ⟨hlen, rfl⟩, rfl⟩
    exact ⟨hlen, by simp [Canonical.Item.bytes, tagBytes, Canonical.tagBytes]⟩
  · rintro ⟨hlen, rfl⟩
    exact ⟨_, rfl, _, ⟨hlen, rfl⟩, by simp [Canonical.Item.bytes, tagBytes, Canonical.tagBytes]⟩

structure Node.Reads (N : Node) (reg : JsValue) (v : RegValues) : Prop where
  version : N.bigInt (prop reg "version") = some (v.version : Int)
  hostID : N.buffer textEncode (prop reg "host_id") = some v.hostID
  sshCAPublicKey : N.buffer textEncode (prop reg "ssh_ca_public_key") = some v.sshCAPublicKey
  sshHostPublicKey : N.buffer textEncode (prop reg "ssh_host_public_key") = some v.sshHostPublicKey
  hostname : N.buffer textEncode (prop reg "hostname") = some v.hostname
  sshPort : N.bigInt (prop reg "ssh_port") = some (v.sshPort : Int)
  sshUser : N.buffer textEncode (prop reg "ssh_user") = some v.sshUser
  timestamp : N.bigInt (prop reg "timestamp") = some (v.timestamp : Int)
  nonce : N.buffer N.base64url (prop reg "nonce") = some v.nonce

theorem cbe_registration {v : RegValues} :
    cbe (js "grantd/v1/host-register") (v.items.map Canonical.Item.bytes) = some v.bytes := by
  have hcontext : lp (textEncode (js "grantd/v1/host-register")) =
      some (Canonical.writeLP Protocol.ctxHostRegister) :=
    lp_eq_some.mpr ⟨by decide, by decide⟩
  have hcount : u32 (v.items.map Canonical.Item.bytes).length = some (Canonical.u32be 10) :=
    u32_eq (n := 10) (by decide)
  simp only [cbe, hcontext, hcount, bind, Option.bind_some, pure]
  rw [List.append_assoc]
  rfl

theorem canonical_eq_some {reg : JsValue} : N.canonical reg identity = some c ↔
    ∃ v : RegValues, v.Fits ∧ v.identityPublicKey = identity ∧ N.Reads reg v ∧ c = v.bytes := by
  simp only [Node.canonical, bind, Option.bind_eq_some_iff,
    fString_eq_some (by decide : SchemaName "host_id"),
    fString_eq_some (by decide : SchemaName "ssh_ca_public_key"),
    fString_eq_some (by decide : SchemaName "ssh_host_public_key"),
    fString_eq_some (by decide : SchemaName "hostname"),
    fString_eq_some (by decide : SchemaName "ssh_user"),
    fU64_eq_some (by decide : SchemaName "version"),
      fU64_eq_some (by decide : SchemaName "ssh_port"),
    fU64_eq_some (by decide : SchemaName "timestamp"),
    fBytes_eq_some (by decide : SchemaName "identity_public_key"),
    fBytes_eq_some (by decide : SchemaName "nonce")]
  constructor
  · rintro ⟨_, ⟨version, h1, hv, rfl⟩, _, ⟨id, h2, hid, rfl⟩, _, ⟨hident, rfl⟩, _,
      ⟨ca, h3, hca, rfl⟩, _, ⟨key, h4, hkey, rfl⟩, _, ⟨host, h5, hhost, rfl⟩, _,
        ⟨port, h6, hport, rfl⟩, _,
      ⟨user, h7, huser, rfl⟩, _, ⟨ts, h8, hts, rfl⟩, nonce, h9, _, ⟨hnonce, rfl⟩, hcbe⟩
    have hbytes := cbe_registration
      (v := ⟨version, id, identity, ca, key, host, port, user, ts, nonce⟩)
    simp only [RegValues.items, List.map_cons, List.map_nil] at hbytes
    exact ⟨_, ⟨hv, hid, hident, hca, hkey, hhost, hport, huser, hts, hnonce⟩, rfl,
      ⟨h1, h2, h3, h4, h5, h6, h7, h8, h9⟩, Option.some.inj (hcbe.symm.trans hbytes)⟩
  · rintro ⟨v, hfit, rfl, h, rfl⟩
    have hbytes := cbe_registration (v := v)
    simp only [RegValues.items, List.map_cons, List.map_nil] at hbytes
    exact ⟨_, ⟨_, h.version, hfit.version, rfl⟩, _, ⟨_, h.hostID, hfit.hostID, rfl⟩, _,
      ⟨hfit.identityPublicKey, rfl⟩, _, ⟨_, h.sshCAPublicKey, hfit.sshCAPublicKey, rfl⟩, _,
      ⟨_, h.sshHostPublicKey, hfit.sshHostPublicKey, rfl⟩, _, ⟨_, h.hostname, hfit.hostname, rfl⟩,
        _,
      ⟨_, h.sshPort, hfit.sshPort, rfl⟩, _, ⟨_, h.sshUser, hfit.sshUser, rfl⟩, _,
      ⟨_, h.timestamp, hfit.timestamp, rfl⟩, _, h.nonce, _, ⟨hfit.nonce, rfl⟩, hbytes⟩

-- ---------------------------------------------------------------------------
-- What acceptance means
-- ---------------------------------------------------------------------------

theorem strictEq_str {v : JsValue} : strictEq v (some (.str s)) = true ↔ v = some (.str s) := by
  unfold strictEq
  split <;> simp_all

theorem strictEq_integer {v : JsValue} :
    strictEq v (some (.num (.integer z))) = true ↔ v = some (.num (.integer z)) := by
  unfold strictEq
  split <;> simp_all

theorem strictEq_comm (v w : JsValue) : strictEq v w = strictEq w v := by
  unfold strictEq
  split
  · rfl
  · rfl
  · exact Bool.beq_comm
  · exact Bool.eq_iff_iff.mpr (by simp only [beq_iff_eq]; exact eq_comm)
  · exact Bool.eq_iff_iff.mpr (by simp only [beq_iff_eq]; exact eq_comm)
  · split
    all_goals simp_all

/-- A value that is the same in two answers and that a buffer was made of is
text. -/
theorem str_of_strictEq {N : Node} {v w : JsValue} (h : strictEq v w = true)
    (hb : N.buffer decode w = some b) :
    ∃ s, v = some (.str s) ∧ w = some (.str s) ∧ decode s = b := by
  cases w with
  | none => cases hb
  | some w =>
    cases w with
    | str s =>
      simp only [Node.buffer, Option.some.injEq] at hb
      exact ⟨s, strictEq_str.mp h, rfl, hb⟩
    | arr items => cases v with
      | none => cases h
      | some v => cases v <;> cases h
    | obj o => cases v with
      | none => cases h
      | some v => cases v <;> cases h
    | _ => cases hb

theorem orThrow_eq_ok {o : Option α} : orThrow o = .ok a ↔ o = some a := by
  cases o with
  | none => exact iff_of_false (by simp [orThrow, throw_eq_ok]) (by simp)
  | some b => simp [orThrow, pure_eq_ok]

structure Node.Verified (N : Node) (id : JsString) (record : Json) (host : NodeHost) : Prop where
  version : prop (prop (some record) "registration") "version" = some (.num (.integer 1))
  hostID : prop (prop (some record) "registration") "host_id" = some (.str id)
  recordID : prop (some record) "host_id" = some (.str id)
  signature : ∃ identity canonical signature,
    N.buffer N.base64url (prop (prop (some record) "registration") "identity_public_key") =
      some identity ∧ N.idOf "h" identity = id ∧
    N.canonical (prop (some record) "registration") identity = some canonical ∧
    N.buffer N.base64url (prop (some record) "signature") = some signature ∧
    N.verifyRaw identity canonical signature = true
  user : host.sshUser = prop (prop (some record) "registration") "ssh_user" ∧
    host.sshUser ≠ some (.str (js "root")) ∧
    ∃ user, N.text host.sshUser = some user ∧ sshUserRe user = true
  hostname : host.hostname = prop (prop (some record) "registration") "hostname" ∧
    ∃ name, N.text host.hostname = some name ∧ hostnameRe name = true
  port : host.sshPort = prop (prop (some record) "registration") "ssh_port" ∧
    isPort host.sshPort = true
  hostKey : prop (prop (some record) "registration") "ssh_host_public_key" =
      some (.str host.hostKeyLine) ∧
    ∃ r, N.keyReader host.hostKeyLine "the host record carries no usable SSH host key"
      "the SSH host key is not ssh-ed25519" = .ok r
  caKey : ∃ ca r, prop (prop (some record) "registration") "ssh_ca_public_key" = some (.str ca) ∧
    N.keyReader ca "the host record carries a malformed SSH CA key"
      "the SSH CA key is not ssh-ed25519" = .ok r ∧
    (∃ r', r.string = some (host.caKey, r')) ∧ host.hostKeyLine ≠ ca

theorem truthy_of_prop (h : prop v key = some x) : truthy v = true := by
  unfold prop at h
  split at h
  · rfl
  · cases h

theorem verifyHostRecord_eq_ok {hostID : JsString} :
    N.verifyHostRecord hostID record = .ok host ↔ N.Verified hostID record host := by
  simp only [Node.verifyHostRecord, bind_eq_ok, ensure_eq_ok, orThrow_eq_ok, Bool.and_eq_true,
    strictEq_str, strictEq_integer, beq_iff_eq, Bool.not_eq_true', Bool.eq_false_iff, ne_eq]
  constructor
  · rintro ⟨_, -, _, hv, _, ⟨hid, hrid⟩, identity, hident, _, hderived, canonical, hcanon,
      signature, hsig, _, hverify, user, huser, _, ⟨huserRe, hroot⟩, name, hname, _,
        hnameRe, _, hport, h⟩
    split at h
    · rename_i ca hca
      simp only [bind_eq_ok] at h
      obtain ⟨r, hr, h⟩ := h
      split at h
      · rename_i hostKey hkeq
        simp only [bind_eq_ok, ensure_eq_ok, orThrow_eq_ok, bne_iff_ne, pure_eq_ok] at h
        obtain ⟨r', hr', _, hne, ⟨caKey, r''⟩, hcaKey, rfl⟩ := h
        exact ⟨hv, hid, hrid, ⟨identity, canonical, signature, hident, hderived, hcanon, hsig,
          hverify⟩, ⟨rfl, hroot, user, huser, huserRe⟩, ⟨rfl, name, hname, hnameRe⟩, ⟨rfl, hport⟩,
          ⟨hkeq, r', hr'⟩, ⟨ca, r, hca, hr, ⟨r'', hcaKey⟩, hne⟩⟩
      · exact absurd h (by simp [throw_eq_ok])
    · exact absurd h (by simp [throw_eq_ok])
  · rintro ⟨hv, hid, hrid, ⟨identity, canonical, signature, hident, hderived, hcanon, hsig,
      hverify⟩, ⟨hu, hroot, user, huser, huserRe⟩, ⟨hn, name, hname, hnameRe⟩, ⟨hp, hport⟩,
        ⟨hk, r', hr'⟩,
      ⟨ca, r, hca, hr, ⟨r'', hcaKey⟩, hne⟩⟩
    obtain ⟨hostname, sshPort, sshUser, caKey, hostKeyLine⟩ := host
    subst hu hn hp
    refine ⟨(), truthy_of_prop hv, (), hv, (), ⟨hid, hrid⟩, identity, hident, (), hderived,
      canonical, hcanon, signature, hsig, (), hverify, user, huser, (), ⟨huserRe, hroot⟩, name,
        hname, (), hnameRe,
      (), hport, ?_⟩
    simp only [hca, hk, bind_eq_ok, ensure_eq_ok, orThrow_eq_ok, bne_iff_ne, pure_eq_ok]
    exact ⟨r, hr, r', hr', (), hne, (caKey, r''), hcaKey, rfl⟩

end

end Grantd.Install
