import Grantd.Canonical

/-!
# The six signed messages

The canonical forms of go/internal/protocol/messages.go. `Message` gathers
them, so that one statement can speak of all schemas at once: equal canonical
bytes are the same message.
-/

namespace Grantd.Protocol

open Base Canonical

def ctxHostRegister : GoString := lit "grantd/v1/host-register"
def ctxHostConnect : GoString := lit "grantd/v1/host-connect"
def ctxGrant : GoString := lit "grantd/v1/grant"
def ctxRedemptionSig : GoString := lit "grantd/v1/redemption-agent-sig"
def ctxRedemptionMAC : GoString := lit "grantd/v1/redemption-proof"
def ctxAgentRegister : GoString := lit "grantd/v1/agent-register"

/-- Why a message has no canonical form: `ErrBadTimestamp`, or what `Encode`
reports. -/
inductive CanonicalError
  | badTimestamp
  | encode (e : EncodeError)
  deriving DecidableEq, Repr

/-- A protocol timestamp in the CBE U64 domain; negatives are rejected. -/
def u64 (v : Int64) : Except CanonicalError UInt64 :=
  if v < 0 then throw .badTimestamp else pure v.toUInt64

def encode (context : GoString) (fields : List Field) : Except CanonicalError Bytes :=
  (Canonical.encode context fields).mapError .encode

-- ---------------------------------------------------------------------------
-- Schemas
-- ---------------------------------------------------------------------------

structure HostRegistration where
  version : UInt64
  hostID : GoString
  identityPublicKey : Bytes
  sshCAPublicKey : GoString
  sshHostPublicKey : GoString
  hostname : GoString
  sshPort : UInt64
  sshUser : GoString
  timestamp : Int64
  nonce : Bytes
  deriving DecidableEq, Repr

def HostRegistration.fields (m : HostRegistration) : Except CanonicalError (List Field) := do
  let ts ← u64 m.timestamp
  pure [U (lit "version") m.version,
    S (lit "host_id") m.hostID,
    B (lit "identity_public_key") m.identityPublicKey,
    S (lit "ssh_ca_public_key") m.sshCAPublicKey,
    S (lit "ssh_host_public_key") m.sshHostPublicKey,
    S (lit "hostname") m.hostname,
    U (lit "ssh_port") m.sshPort,
    S (lit "ssh_user") m.sshUser,
    U (lit "timestamp") ts,
    B (lit "nonce") m.nonce]

def HostRegistration.canonical (m : HostRegistration) : Except CanonicalError Bytes := do
  encode ctxHostRegister (← m.fields)

structure HostConnect where
  version : UInt64
  hostID : GoString
  path : GoString
  timestamp : Int64
  nonce : Bytes
  deriving DecidableEq, Repr

def HostConnect.fields (m : HostConnect) : Except CanonicalError (List Field) := do
  let ts ← u64 m.timestamp
  pure [U (lit "version") m.version,
    S (lit "host_id") m.hostID,
    S (lit "path") m.path,
    U (lit "timestamp") ts,
    B (lit "nonce") m.nonce]

def HostConnect.canonical (m : HostConnect) : Except CanonicalError Bytes := do
  encode ctxHostConnect (← m.fields)

/-- The public grant metadata. It holds nothing of the secret. -/
structure Grant where
  version : UInt64
  hostID : GoString
  grantID : GoString
  sshUser : GoString
  createdAt : Int64
  expiresAt : Int64
  deriving DecidableEq, Repr

def Grant.fields (m : Grant) : Except CanonicalError (List Field) := do
  let created ← u64 m.createdAt
  let expires ← u64 m.expiresAt
  pure [U (lit "version") m.version,
    S (lit "host_id") m.hostID,
    S (lit "grant_id") m.grantID,
    S (lit "ssh_user") m.sshUser,
    U (lit "created_at") created,
    U (lit "expires_at") expires]

def Grant.canonical (m : Grant) : Except CanonicalError Bytes := do
  encode ctxGrant (← m.fields)

/-- The visiting agent's request: certify this SSH key under this grant on
this host, now. -/
structure RedemptionPayload where
  version : UInt64
  hostID : GoString
  grantID : GoString
  agentID : GoString
  agentPublicKey : Bytes
  sshPublicKey : GoString
  timestamp : Int64
  nonce : Bytes
  deriving DecidableEq, Repr

def RedemptionPayload.fields (m : RedemptionPayload) : Except CanonicalError (List Field) := do
  let ts ← u64 m.timestamp
  pure [U (lit "version") m.version,
    S (lit "host_id") m.hostID,
    S (lit "grant_id") m.grantID,
    S (lit "agent_id") m.agentID,
    B (lit "agent_public_key") m.agentPublicKey,
    S (lit "ssh_public_key") m.sshPublicKey,
    U (lit "timestamp") ts,
    B (lit "nonce") m.nonce]

def RedemptionPayload.canonicalSig (m : RedemptionPayload) : Except CanonicalError Bytes := do
  encode ctxRedemptionSig (← m.fields)

def RedemptionPayload.canonicalMAC (m : RedemptionPayload) : Except CanonicalError Bytes := do
  encode ctxRedemptionMAC (← m.fields)

def RedemptionPayload.Encodable (m : RedemptionPayload) : Prop :=
  Text m.hostID ∧ Text m.grantID ∧ Text m.agentID ∧ Text m.sshPublicKey

instance (m : RedemptionPayload) : Decidable m.Encodable :=
  inferInstanceAs (Decidable (_ ∧ _ ∧ _ ∧ _))

structure AgentRegistration where
  version : UInt64
  agentID : GoString
  publicKey : Bytes
  challengeID : GoString
  powNonce : GoString
  timestamp : Int64
  deriving DecidableEq, Repr

def AgentRegistration.fields (m : AgentRegistration) : Except CanonicalError (List Field) := do
  let ts ← u64 m.timestamp
  pure [U (lit "version") m.version,
    S (lit "agent_id") m.agentID,
    B (lit "public_key") m.publicKey,
    S (lit "challenge_id") m.challengeID,
    S (lit "pow_nonce") m.powNonce,
    U (lit "timestamp") ts]

def AgentRegistration.canonical (m : AgentRegistration) : Except CanonicalError Bytes := do
  encode ctxAgentRegister (← m.fields)

-- ---------------------------------------------------------------------------
-- All schemas together
-- ---------------------------------------------------------------------------

/-- Every message that is signed or MAC'd, with the redemption payload once
under each of its two contexts. -/
inductive Message
  | hostRegistration (m : HostRegistration)
  | hostConnect (m : HostConnect)
  | grant (m : Grant)
  | redemptionSig (m : RedemptionPayload)
  | redemptionMAC (m : RedemptionPayload)
  | agentRegistration (m : AgentRegistration)
  deriving DecidableEq, Repr

def Message.context : Message → GoString
  | .hostRegistration _ => ctxHostRegister
  | .hostConnect _ => ctxHostConnect
  | .grant _ => ctxGrant
  | .redemptionSig _ => ctxRedemptionSig
  | .redemptionMAC _ => ctxRedemptionMAC
  | .agentRegistration _ => ctxAgentRegister

def Message.fields : Message → Except CanonicalError (List Field)
  | .hostRegistration m => m.fields
  | .hostConnect m => m.fields
  | .grant m => m.fields
  | .redemptionSig m => m.fields
  | .redemptionMAC m => m.fields
  | .agentRegistration m => m.fields

def Message.canonical : Message → Except CanonicalError Bytes
  | .hostRegistration m => m.canonical
  | .hostConnect m => m.canonical
  | .grant m => m.canonical
  | .redemptionSig m => m.canonicalSig
  | .redemptionMAC m => m.canonicalMAC
  | .agentRegistration m => m.canonical

def Message.size : Message → Nat
  | .hostRegistration m => m.hostID.length + m.identityPublicKey.length + m.sshCAPublicKey.length +
      m.sshHostPublicKey.length + m.hostname.length + m.sshUser.length + m.nonce.length
  | .hostConnect m => m.hostID.length + m.path.length + m.nonce.length
  | .grant m => m.hostID.length + m.grantID.length + m.sshUser.length
  | .redemptionSig m | .redemptionMAC m => m.hostID.length + m.grantID.length + m.agentID.length +
      m.agentPublicKey.length + m.sshPublicKey.length + m.nonce.length
  | .agentRegistration m => m.agentID.length + m.publicKey.length + m.challengeID.length +
      m.powNonce.length

def Message.Fits (m : Message) : Prop :=
  match m.fields with
  | .ok fields => ∀ f ∈ fields, f.Fits
  | .error _ => True

instance (m : Message) : Decidable m.Fits := by
  unfold Message.Fits
  split <;> infer_instance

theorem Message.canonical_eq (m : Message) :
    m.canonical = m.fields >>= fun fields => encode m.context fields := by
  cases m <;> rfl

theorem u64_eq_ok (v : Int64) (w : UInt64) : u64 v = .ok w ↔ 0 ≤ v ∧ w = v.toUInt64 := by
  unfold u64
  split
  · rename_i h
    simp only [throw_eq_ok, false_iff, not_and]
    exact fun hv => absurd h (Int64.not_lt.mpr hv)
  · rename_i h
    rw [pure_eq_ok]
    exact ⟨fun he => ⟨Int64.not_lt.mp h, he.symm⟩, fun ⟨_, he⟩ => he.symm⟩

theorem toUInt64_inj {v w : Int64} : v.toUInt64 = w.toUInt64 ↔ v = w :=
  ⟨congrArg UInt64.toInt64, congrArg _⟩

theorem toNat_toUInt64 {v : Int64} (h : 0 ≤ v) : (v.toUInt64.toNat : Int) = v.toInt := by
  have hpos : (0 : Int) ≤ v.toInt := by simpa [Int64.le_iff_toInt_le] using h
  have hcond := v.toInt_toBitVec
  rw [BitVec.toInt_eq_toNat_cond] at hcond
  split at hcond
  · exact hcond
  · have hlt := v.toBitVec.isLt
    omega

theorem toUInt64_le_maxU64 {v : Int64} (h : 0 ≤ v) : v.toUInt64 ≤ maxU64 := by
  have hlt := v.toInt_lt
  have hnat := toNat_toUInt64 h
  have hmax : maxU64.toNat = 2 ^ 63 - 1 := rfl
  rw [UInt64.le_iff_toNat_le]
  omega

theorem RedemptionPayload.encode_isOk {m : RedemptionPayload} {ctx : GoString} (hctx : ctx ≠ [])
    (hutf8 : validString ctx = true) (hv : m.version ≤ maxU64) :
    (∃ out, (do encode ctx (← m.fields)) = .ok out) ↔ 0 ≤ m.timestamp ∧ m.Encodable := by
  simp only [Protocol.encode, RedemptionPayload.fields, bind_eq_ok, u64_eq_ok, pure_eq_ok,
    mapError_eq_ok]
  constructor
  · rintro ⟨out, _, ⟨_, ⟨hts, rfl⟩, rfl⟩, henc⟩
    have h := ((Canonical.encode_isOk _ _).mp ⟨out, henc⟩).2.2
    simp only [List.forall_mem_cons, S_encodable, U_encodable, B_encodable] at h
    obtain ⟨-, hhost, hgrant, hagent, -, hssh, -⟩ := h
    exact ⟨hts, hhost.2.2, hgrant.2.2, hagent.2.2, hssh.2.2⟩
  · rintro ⟨hts, hhost, hgrant, hagent, hssh⟩
    have h : ∃ out, Canonical.encode ctx _ = .ok out := (Canonical.encode_isOk ctx
      [U (lit "version") m.version, S (lit "host_id") m.hostID, S (lit "grant_id") m.grantID,
        S (lit "agent_id") m.agentID, B (lit "agent_public_key") m.agentPublicKey,
        S (lit "ssh_public_key") m.sshPublicKey, U (lit "timestamp") m.timestamp.toUInt64,
        B (lit "nonce") m.nonce]).mpr ⟨hctx, hutf8, by
          simp +decide [S_encodable, U_encodable, B_encodable, hv, hhost, hgrant, hagent, hssh,
            toUInt64_le_maxU64 hts]⟩
    obtain ⟨out, henc⟩ := h
    exact ⟨out, _, ⟨_, ⟨hts, rfl⟩, rfl⟩, henc⟩

theorem Message.length_fields {fs : List Field} (h : Message.fields m = .ok fs) :
    fs.length ≤ 10 := by
  cases m <;>
    simp only [Message.fields, HostRegistration.fields, HostConnect.fields, Grant.fields,
      RedemptionPayload.fields, AgentRegistration.fields, bind_eq_ok, pure_eq_ok] at h
  case grant m =>
    obtain ⟨_, -, _, -, rfl⟩ := h
    simp
  all_goals
    obtain ⟨_, -, rfl⟩ := h
    simp

theorem Message.length_context (m : Message) : m.context.length ≤ 30 := by
  cases m <;> exact of_decide_eq_true rfl

theorem Message.encode_fits {fs : List Field} (h : Message.fields m = .ok fs) (hf : m.Fits) :
    Canonical.Fits m.context fs := by
  refine ⟨Nat.lt_of_le_of_lt m.length_context (by decide),
    Nat.lt_of_le_of_lt (length_fields h) (by decide), ?_⟩
  simpa [Message.Fits, h] using hf

/-- Each context names one schema, and the contents of its fields are the
message. -/
theorem Message.eq_of_content (hm : Message.fields m = .ok fs) (hm' : Message.fields m' = .ok fs')
    (hc : m.context = m'.context) (hcont : fs.map Field.content = fs'.map Field.content) :
    m = m' := by
  cases m <;> cases m'
  -- Two different schemas have two different contexts.
  all_goals try exact absurd hc (of_decide_eq_false rfl)
  all_goals
    rename_i m m'
    cases m
    cases m'
    simp only [Message.fields, HostRegistration.fields, HostConnect.fields, Grant.fields,
      RedemptionPayload.fields, AgentRegistration.fields, bind_eq_ok, pure_eq_ok,
      u64_eq_ok] at hm hm'
  case grant.grant =>
    obtain ⟨_, ⟨-, rfl⟩, _, ⟨-, rfl⟩, rfl⟩ := hm
    obtain ⟨_, ⟨-, rfl⟩, _, ⟨-, rfl⟩, rfl⟩ := hm'
    simp_all [Field.content, Field.value, U, S, tagString, tagU64, toUInt64_inj]
  all_goals
    obtain ⟨_, ⟨-, rfl⟩, rfl⟩ := hm
    obtain ⟨_, ⟨-, rfl⟩, rfl⟩ := hm'
    simp_all [Field.content, Field.value, U, S, B, tagString, tagU64, tagBytes, toUInt64_inj]

/-- The bytes that are signed or MAC'd determine the message, its schema
included. -/
theorem Message.canonical_inj {m m' : Message} (h : m.canonical = .ok e)
    (h' : m'.canonical = .ok e) (hfit : m.Fits) (hfit' : m'.Fits) : m = m' := by
  simp only [Message.canonical_eq, Protocol.encode, bind_eq_ok, mapError_eq_ok] at h h'
  obtain ⟨fs, hfs, henc⟩ := h
  obtain ⟨fs', hfs', henc'⟩ := h'
  obtain ⟨hc, hcont, -⟩ := encode_read (r := []) (q := []) henc henc' (encode_fits hfs hfit)
    (encode_fits hfs' hfit') rfl
  exact eq_of_content hfs hfs' hc hcont

/-- The variable parts of the fields are those of the message, and the names
are short. -/
theorem Message.sum_payloadLength {fs : List Field} (h : Message.fields m = .ok fs) :
    (fs.map Field.payloadLength).sum = m.size ∧ ∀ f ∈ fs, f.name.length ≤ 19 := by
  cases m <;>
    simp only [Message.fields, HostRegistration.fields, HostConnect.fields, Grant.fields,
      RedemptionPayload.fields, AgentRegistration.fields, bind_eq_ok, pure_eq_ok] at h
  case grant m =>
    obtain ⟨_, -, _, -, rfl⟩ := h
    refine ⟨?_, by simp +decide [U, S]⟩
    simp [Field.payloadLength, U, S, tagString, tagBytes, tagU64, Message.size]
    omega
  all_goals
    obtain ⟨_, -, rfl⟩ := h
    refine ⟨?_, by simp +decide [U, S, B]⟩
    simp [Field.payloadLength, U, S, B, tagString, tagBytes, tagU64, Message.size]
    omega

theorem sum_size {fs : List Field} (h : ∀ f ∈ fs, f.name.length ≤ n) :
    (fs.map Field.size).sum ≤ (17 + n) * fs.length + (fs.map Field.payloadLength).sum := by
  induction fs with
  | nil => simp
  | cons f fs ih =>
    have hf := h f (by simp)
    have hfs := ih fun g hg => h g (List.mem_cons_of_mem _ hg)
    simp only [List.map_cons, List.sum_cons, List.length_cons, Field.size, Nat.mul_add]
    omega

theorem Message.length_canonical (h : Message.canonical m = .ok e) : e.length ≤ 512 + m.size := by
  simp only [Message.canonical_eq, Protocol.encode, bind_eq_ok, mapError_eq_ok] at h
  obtain ⟨fs, hfs, henc⟩ := h
  obtain ⟨hsum, hnames⟩ := sum_payloadLength hfs
  have hlen := Canonical.length_encode henc
  have hsize := sum_size hnames
  have hcount := length_fields hfs
  have hctx := m.length_context
  omega

theorem Message.fits_of_length (h : Message.canonical m = .ok e) (hlen : e.length < 2 ^ 32) :
    m.Fits := by
  simp only [Message.canonical_eq, Protocol.encode, bind_eq_ok, mapError_eq_ok] at h
  obtain ⟨fs, hfs, henc⟩ := h
  simpa [Message.Fits, hfs] using (Canonical.fits_of_length henc hlen).2.2

theorem Message.context_of_canonical {m m' : Message} (h : m.canonical = .ok e)
    (h' : m'.canonical = .ok e) : m.context = m'.context := by
  simp only [Message.canonical_eq, Protocol.encode, bind_eq_ok, mapError_eq_ok] at h h'
  obtain ⟨fs, -, henc⟩ := h
  obtain ⟨fs', -, henc'⟩ := h'
  obtain ⟨items, rfl, -⟩ := encode_items henc
  obtain ⟨items', heq, -⟩ := encode_items henc'
  have hshort (m : Message) : m.context.length < 2 ^ 32 :=
    Nat.lt_of_le_of_lt m.length_context (by decide)
  exact (writeLP_decodable (hshort m) (hshort m') heq).1

/-- A message of an everyday size shares its bytes with no other message,
whatever the size of that. -/
theorem Message.eq_of_canonical {m m' : Message} (h : m.canonical = .ok e)
    (h' : m'.canonical = .ok e) (hsize : m.size < 2 ^ 31) : m = m' := by
  have hlen : e.length < 2 ^ 32 := by
    have := length_canonical h
    omega
  exact canonical_inj h h' (fits_of_length h hlen) (fits_of_length h' hlen)

/-- Canonical Binary Encoding is uniquely decodable: an encoding with anything
behind it can be read in one way only. So `encode` is injective up to the
members a tag does not select, no encoding is a proper beginning of another,
and equal canonical bytes are one and the same message. -/
theorem encode_uniquely_decodable :
    (∀ c c' fs fs' e e' r r', Canonical.encode c fs = .ok e → Canonical.encode c' fs' = .ok e' →
      Fits c fs → Fits c' fs' → e ++ r = e' ++ r' →
      c = c' ∧ fs.map Field.content = fs'.map Field.content ∧ r = r') ∧
    (∀ c c' fs fs' e, Canonical.encode c fs = .ok e → Canonical.encode c' fs' = .ok e →
      Fits c fs → Fits c' fs' → c = c' ∧ fs.map Field.content = fs'.map Field.content) ∧
    (∀ c c' fs fs' e e', Canonical.encode c fs = .ok e → Canonical.encode c' fs' = .ok e' →
      Fits c fs → Fits c' fs' → e <+: e' → e = e') ∧
    (∀ (m m' : Message) e, m.canonical = .ok e → m'.canonical = .ok e →
      m.Fits → m'.Fits → m = m') := by
  refine ⟨fun c c' fs fs' e e' r r' => encode_read, ?_, ?_, fun m m' e => Message.canonical_inj⟩
  · intro c c' fs fs' e h h' hfit hfit'
    obtain ⟨hc, hcont, -⟩ := encode_read (r := []) (q := []) h h' hfit hfit' rfl
    exact ⟨hc, hcont⟩
  · rintro c c' fs fs' e _ h h' hfit hfit' ⟨r, rfl⟩
    obtain ⟨-, -, rfl⟩ := encode_read (r := r) (q := []) h h' hfit hfit' (by simp)
    simp

/-- Moving a byte from the context into the first field's name changes the
encoding, whatever follows. -/
theorem encode_uniquely_decodable_shift :
    ∃ e e', Canonical.encode (lit "ab") [S (lit "c") (lit "d")] = .ok e ∧
      Canonical.encode (lit "a") [S (lit "bc") (lit "d")] = .ok e' ∧
      ∀ r r', e ++ r ≠ e' ++ r' := by
  refine ⟨_, _, rfl, rfl, fun r r' heq => ?_⟩
  have h := encode_uniquely_decodable.1 (lit "ab") (lit "a") [S (lit "c") (lit "d")]
    [S (lit "bc") (lit "d")] _ _ r r' rfl rfl (by decide) (by decide) heq
  exact absurd h.1 (by decide)

end Grantd.Protocol
