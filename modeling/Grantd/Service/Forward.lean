import Grantd.Service.Encoding
import Grantd.Service.HostDO
import Grantd.Signer.Envelope
import Grantd.Signer.Records

/-!
# One envelope, read twice

`HostDO.redeem` parses a body, checks what it finds, writes an audit row and
forwards the text unchanged. The signer parses the same text with another
decoder. The two read the same envelope as long as no re-cased key takes the
place of a field's own.
-/

namespace Grantd.Service

open Base
open Base.JsonText (Number Members Fields)
open Signer (Doc unmarshalRequest unmarshalPayload PayloadField RequestField payloadFields
  requestFields PayloadJSON RequestJSON)

-- ---------------------------------------------------------------------------
-- JSON.parse
-- ---------------------------------------------------------------------------

/-- An integer beyond the safe range stays beyond it when it is rounded, and
is kept as it stands. -/
def readNumber : Number → JsNumber
  | .integer negative n => .integer (if negative then -n else n)
  | .decimal (some z) => .integer z
  | .decimal none => .other

mutual

/-- `JSON.parse`. The last of two members with one key wins, so members are
kept from last to first. -/
def jsonParse : Doc → Json
  | .null => .null
  | .bool b => .bool b
  | .num n => .num (readNumber n)
  | .str s => .str s
  | .arr items => .arr (jsonParseItems items)
  | .obj members => .obj (jsonParseMembers members).reverse

def jsonParseItems : List Doc → List Json
  | [] => []
  | v :: rest => jsonParse v :: jsonParseItems rest

def jsonParseMembers : List (JsString × Doc) → List (JsString × Json)
  | [] => []
  | (key, v) :: rest => (key, jsonParse v) :: jsonParseMembers rest

end

def parseJsonObject (raw : Doc) : Option Record :=
  match jsonParse raw with
  | .obj o => some o
  | _ => none

-- ---------------------------------------------------------------------------
-- HostDO.redeem
-- ---------------------------------------------------------------------------

def maxRedeemAttemptsPerWindow : Nat := 60
def redeemAttemptWindow : Int := 60

structure RedemptionRow where
  requestID : JsString
  grantID : JsString
  agentID : JsString
  keyFp : JsString
  requestedAt : Int

structure RedeemTables where
  attempts : List Int
  redemptions : List RedemptionRow

/-- What `redeem` reads beside the request and the tables: the clock, the agent
registry, the socket and a random id. -/
structure RedeemReading where
  now : Int
  registeredAgentKey : JsString → Option JsString
  connected : Bool
  requestID : JsString

def recordRedeemAttempt (now : Int) (attempts : List Int) : Bool × List Int :=
  let attempts := attempts.filter (!· < now - redeemAttemptWindow)
  if maxRedeemAttemptsPerWindow ≤ attempts.length then (false, attempts)
  else (true, attempts ++ [now])

variable (C : Subtle)

/-- The checks before the attempt is counted; the result is the envelope and
the key's fingerprint. -/
def checkRedeem (env : RedeemReading) (grantID : JsString) (raw : Doc) (d : HostDO) :
    Except Response (RedemptionRequest × JsString) := do
  match d.host with
  | none => throw (errorResponse .hostNotFound "no such host")
  | some h =>
    match parseJsonObject raw with
    | none => throw (errorResponse .badRequest "body must be a JSON object")
    | some body =>
      let request ← HostDO.caught (parseRedemptionRequest (some (.obj body)))
      let payload := request.payload
      ensure (payload.grantID == grantID)
        (errorResponse .badRequest "grant_id in body does not match the URL")
      ensure (payload.hostID == h.hostID)
        (errorResponse .idMismatch "redemption is addressed to a different host")
      ensure (withinSkew env.now payload.timestamp skewRedemption)
        (errorResponse .staleTimestamp "redemption timestamp is outside the allowed window")
      let derived ← HostDO.caught (agentID C payload.agentPublicKey)
      ensure (derived == payload.agentID)
        (errorResponse .idMismatch "agent_id does not match agent_public_key")
      let message ← HostDO.hidden (canonicalRedemptionSig payload)
      ensure (verifyEd25519 C payload.agentPublicKey message request.agentSignature)
        (errorResponse .badSignature "agent signature does not verify")
      match d.grants.get? grantID with
      | none => throw (errorResponse .grantNotFound "no such grant")
      | some row =>
        ensure (env.now < row.expiresAt) (errorResponse .grantExpired "grant has expired")
        match env.registeredAgentKey payload.agentID with
        | none =>
          throw (errorResponse .agentNotFound "register an agent identity before redeeming")
        | some registered =>
          ensure (registered == b64uEncode payload.agentPublicKey)
            (errorResponse .idMismatch "agent_public_key does not match the registered key")
          ensure env.connected (errorResponse .hostOffline "the host is not currently connected")
          let keyFp ← HostDO.caught (sshKeyFingerprint C payload.sshPublicKey)
          pure (request, keyFp)

/-- `redeem`, up to `forwardToHost`: the answer, or the text that is sent. -/
def redeem (env : RedeemReading) (grantID : JsString) (raw : Doc) (d : HostDO) (t : RedeemTables) :
    Except Response Doc × RedeemTables :=
  match checkRedeem C env grantID raw d with
  | .error r => (.error r, t)
  | .ok (request, keyFp) =>
    match recordRedeemAttempt env.now t.attempts with
    | (false, attempts) =>
      (.error (errorResponse .rateLimited "too many redemption attempts for this host"),
        { t with attempts })
    | (true, attempts) =>
      (.ok raw, { attempts, redemptions := t.redemptions ++ [{
        requestID := env.requestID, grantID, agentID := request.payload.agentID, keyFp
        requestedAt := env.now }] })

-- ---------------------------------------------------------------------------
-- Looking a key up
-- ---------------------------------------------------------------------------

theorem jsonParseMembers_eq (o : Members JsString) :
    jsonParseMembers o = o.map fun m => (m.1, jsonParse m.2) := by
  induction o with
  | nil => rfl
  | cons m rest ih => simp only [jsonParseMembers, ih, List.map_cons]

theorem get_jsonParse (o : Members JsString) (key : JsString) :
    Record.get (jsonParseMembers o).reverse key = (o.own key).map jsonParse := by
  rw [Record.get, jsonParseMembers_eq, ← List.map_reverse, List.find?_map, Members.own,
    ← List.head?_filter, List.filter_reverse, List.head?_reverse, Option.map_map, Option.map_map]
  simp only [Function.comp_def, beq_eq_decide]

theorem own_of_str {o : Members JsString} {key : JsString}
    (h : str (jsonParseMembers o).reverse key bound = .ok s) : o.own key = some (.str s) := by
  rw [str_eq_ok, get_jsonParse, Option.map_eq_some_iff] at h
  obtain ⟨⟨v, hv, hs⟩, -⟩ := h
  cases v with
  | str s' =>
    cases hs
    exact hv
  | _ => cases hs

theorem own_of_int {o : Members JsString} {key : JsString}
    (h : int (jsonParseMembers o).reverse key = .ok z) :
    ∃ n, o.own key = some (.num n) ∧ readNumber n = .integer z := by
  rw [int_eq_ok, get_jsonParse, Option.map_eq_some_iff] at h
  obtain ⟨⟨v, hv, hz⟩, -⟩ := h
  cases v with
  | num n =>
    simp only [jsonParse, Json.num.injEq] at hz
    exact ⟨n, hv, hz⟩
  | _ => cases hz

theorem own_of_bytes {o : Members JsString} {key : JsString}
    (h : bytes (jsonParseMembers o).reverse key n = .ok b) :
    ∃ s, o.own key = some (.str s) ∧ b64uDecode s = some b := by
  simp only [bytes_eq_ok, get_jsonParse, Option.map_eq_some_iff] at h
  obtain ⟨s, ⟨v, hv, hs⟩, hdec, -⟩ := h
  cases v with
  | str s' =>
    cases hs
    exact ⟨s, hv, hdec⟩
  | _ => cases hs

-- ---------------------------------------------------------------------------
-- The fields of the envelope
-- ---------------------------------------------------------------------------

inductive Value
  | text (s : Bytes)
  | number (n : Int)
  | bytes (b : Bytes)
  deriving DecidableEq, Repr

/-- What encoding/json makes of a value; a field with none stays zero. -/
def textOf : Option Doc → Option GoString
  | none => some []
  | some v => Signer.decodeString v

def bytesOf (v : Option Doc) : Option Bytes := (textOf v).bind Protocol.b64Decode

def readField (v : Option Doc) : PayloadField → Option Value
  | .version => (v.elim (some 0) Signer.decodeUint64).map fun n => .number n.toNat
  | .timestamp => (v.elim (some 0) Signer.decodeInt64).map fun n => .number n.toInt
  | .agentPublicKey | .nonce => (bytesOf v).map .bytes
  | .hostID | .grantID | .agentID | .sshPublicKey => (textOf v).map .text

def RedemptionPayload.value (m : RedemptionPayload) : PayloadField → Value
  | .version => .number m.version
  | .hostID => .text (textEncode m.hostID)
  | .grantID => .text (textEncode m.grantID)
  | .agentID => .text (textEncode m.agentID)
  | .agentPublicKey => .bytes m.agentPublicKey
  | .sshPublicKey => .text (textEncode m.sshPublicKey)
  | .timestamp => .number m.timestamp
  | .nonce => .bytes m.nonce

def goValue (p : Protocol.RedemptionPayload) : PayloadField → Value
  | .version => .number p.version.toNat
  | .hostID => .text p.hostID
  | .grantID => .text p.grantID
  | .agentID => .text p.agentID
  | .agentPublicKey => .bytes p.agentPublicKey
  | .sshPublicKey => .text p.sshPublicKey
  | .timestamp => .number p.timestamp.toInt
  | .nonce => .bytes p.nonce

def membersOf : Option Doc → Members JsString
  | some (.obj o) => o
  | _ => []

-- ---------------------------------------------------------------------------
-- The signer's reading
-- ---------------------------------------------------------------------------

theorem ofDoc_eq_some (h : PayloadJSON.ofDoc v = some j) :
    JsonText.assign payloadFields PayloadJSON.set {} (membersOf (some v)) = some j := by
  cases v with
  | null => exact h
  | obj members => exact h
  | _ => cases h

theorem set_other (h : PayloadJSON.set j v s = some t) :
    (j ≠ .version → t.version = s.version) ∧ (j ≠ .hostID → t.hostID = s.hostID) ∧
    (j ≠ .grantID → t.grantID = s.grantID) ∧ (j ≠ .agentID → t.agentID = s.agentID) ∧
    (j ≠ .agentPublicKey → t.agentPublicKey = s.agentPublicKey) ∧
    (j ≠ .sshPublicKey → t.sshPublicKey = s.sshPublicKey) ∧
    (j ≠ .timestamp → t.timestamp = s.timestamp) ∧ (j ≠ .nonce → t.nonce = s.nonce) := by
  cases j
  all_goals
    obtain ⟨x, -, rfl⟩ := Option.map_eq_some_iff.mp h
    simp

/-- One field of the shadow struct, given by its projection, its update and its
decoder. -/
theorem field_kept (π : PayloadJSON → β) (upd : PayloadJSON → β → PayloadJSON)
    (decode : Doc → Option β)
    (hset : ∀ v s, PayloadJSON.set i v s =
      (JsonText.overwrite JsonText.Doc.isNull decode (π s) v).map (upd s))
    (hget : ∀ s x, π (upd s x) = x)
    (hother : ∀ j v s t, j ≠ i → PayloadJSON.set j v s = some t → π t = π s)
    (h : PayloadJSON.ofDoc v = some j) :
    (∀ w ∈ Members.under payloadFields (membersOf (some v)) i, w.isNull = false →
      ∃ x, decode w = some x) ∧
    (Members.kept payloadFields JsonText.Doc.isNull (membersOf (some v)) i).elim
    (some (π {})) decode
      = some (π j) := by
  refine JsonText.assign_kept (fun v s t hst => ?_) hother (ofDoc_eq_some h)
  rw [hset] at hst
  obtain ⟨x, hx, rfl⟩ := Option.map_eq_some_iff.mp hst
  rw [hx, hget]

theorem version_kept (h : PayloadJSON.ofDoc v = some j) :
    (∀ w ∈ Members.under payloadFields (membersOf (some v)) .version, w.isNull = false →
      ∃ x, Signer.decodeUint64 w = some x) ∧
    (Members.kept payloadFields JsonText.Doc.isNull (membersOf (some v)) .version).elim (some 0)
      Signer.decodeUint64 = some j.version :=
  field_kept (·.version) (fun s x => { s with version := x }) Signer.decodeUint64 (i := .version)
    (fun _ _ => rfl) (fun _ _ => rfl) (fun _ _ _ _ hj hs => (set_other hs).1 hj) h

theorem timestamp_kept (h : PayloadJSON.ofDoc v = some j) :
    (∀ w ∈ Members.under payloadFields (membersOf (some v)) .timestamp, w.isNull = false →
      ∃ x, Signer.decodeInt64 w = some x) ∧
    (Members.kept payloadFields JsonText.Doc.isNull (membersOf (some v)) .timestamp).elim (some 0)
      Signer.decodeInt64 = some j.timestamp :=
  field_kept (·.timestamp) (fun s x => { s with timestamp := x }) Signer.decodeInt64
    (i := .timestamp) (fun _ _ => rfl) (fun _ _ => rfl)
    (fun _ _ _ _ hj hs => (set_other hs).2.2.2.2.2.2.1 hj) h

theorem textOf_eq (v : Option Doc) : textOf v = v.elim (some []) Signer.decodeString := by
  cases v <;> rfl

/-- The signer's payload holds, in each field, the last value under any
spelling of the field's name. -/
theorem readField_kept (h : unmarshalPayload v = some p) (i : PayloadField) :
    readField (Members.kept payloadFields JsonText.Doc.isNull (membersOf (some v)) i) i =
      some (goValue p i) := by
  obtain ⟨j, hj, hp⟩ := Option.bind_eq_some_iff.mp h
  simp only [PayloadJSON.payload, Option.bind_eq_bind, Option.bind_eq_some_iff] at hp
  obtain ⟨pk, hpk, nonce, hnonce, hp⟩ := hp
  cases hp
  cases i with
  | version => simp only [readField, (version_kept hj).2, Option.map_some, goValue]
  | timestamp => simp only [readField, (timestamp_kept hj).2, Option.map_some, goValue]
  | hostID =>
    have hk := (field_kept (·.hostID) (fun s x => { s with hostID := x }) Signer.decodeString
      (i := .hostID) (fun _ _ => rfl) (fun _ _ => rfl)
      (fun _ _ _ _ hj hs => (set_other hs).2.1 hj) hj).2
    simp only [readField, textOf_eq, hk, Option.map_some, goValue]
  | grantID =>
    have hk := (field_kept (·.grantID) (fun s x => { s with grantID := x }) Signer.decodeString
      (i := .grantID) (fun _ _ => rfl) (fun _ _ => rfl)
      (fun _ _ _ _ hj hs => (set_other hs).2.2.1 hj) hj).2
    simp only [readField, textOf_eq, hk, Option.map_some, goValue]
  | agentID =>
    have hk := (field_kept (·.agentID) (fun s x => { s with agentID := x }) Signer.decodeString
      (i := .agentID) (fun _ _ => rfl) (fun _ _ => rfl)
      (fun _ _ _ _ hj hs => (set_other hs).2.2.2.1 hj) hj).2
    simp only [readField, textOf_eq, hk, Option.map_some, goValue]
  | agentPublicKey =>
    have hk := (field_kept (·.agentPublicKey) (fun s x => { s with agentPublicKey := x })
      Signer.decodeString (i := .agentPublicKey) (fun _ _ => rfl) (fun _ _ => rfl)
      (fun _ _ _ _ hj hs => (set_other hs).2.2.2.2.1 hj) hj).2
    simp only [readField, bytesOf, textOf_eq, hk, Option.bind_some, hpk, Option.map_some, goValue]
  | sshPublicKey =>
    have hk := (field_kept (·.sshPublicKey) (fun s x => { s with sshPublicKey := x })
      Signer.decodeString (i := .sshPublicKey) (fun _ _ => rfl) (fun _ _ => rfl)
      (fun _ _ _ _ hj hs => (set_other hs).2.2.2.2.2.1 hj) hj).2
    simp only [readField, textOf_eq, hk, Option.map_some, goValue]
  | nonce =>
    have hk := (field_kept (·.nonce) (fun s x => { s with nonce := x }) Signer.decodeString
      (i := .nonce) (fun _ _ => rfl) (fun _ _ => rfl)
      (fun _ _ _ _ hj hs => (set_other hs).2.2.2.2.2.2.2 hj) hj).2
    simp only [readField, bytesOf, textOf_eq, hk, Option.bind_some, hnonce,
      Option.map_some, goValue]

-- ---------------------------------------------------------------------------
-- The service's reading
-- ---------------------------------------------------------------------------

theorem find_payloadField (i : PayloadField) :
    payloadFields.find (payloadFields.name i) = some i := by
  cases i <;> decide

theorem decodeUint64_eq {n : Number} (hz : readNumber n = .integer z)
    (h : Signer.decodeUint64 (.num n) = some x) : (x.toNat : Int) = z := by
  cases n with
  | decimal d => cases h
  | integer negative k =>
    cases negative with
    | true => cases h
    | false =>
      simp only [Signer.decodeUint64] at h
      split at h
      · rename_i hk
        cases h
        cases hz
        rw [UInt64.toNat_ofNat_of_lt' hk]
        rfl
      · cases h

theorem decodeInt64_eq {n : Number} (hz : readNumber n = .integer z)
    (h : Signer.decodeInt64 (.num n) = some x) : x.toInt = z := by
  cases n with
  | decimal d => cases h
  | integer negative k =>
    cases negative with
    | true =>
      simp only [Signer.decodeInt64] at h
      split at h
      · rename_i hk
        cases h
        cases hz
        rw [Int64.toInt_ofInt_of_le (by omega) (by omega)]
        rfl
      · cases h
    | false =>
      simp only [Signer.decodeInt64] at h
      split at h
      · rename_i hk
        cases h
        cases hz
        rw [Int64.toInt_ofNat_of_lt (by omega)]
        rfl
      · cases h

theorem bytesOf_str (h : b64uDecode s = some b) : bytesOf (some (.str s)) = some b := by
  simp only [bytesOf, textOf, Signer.decodeString, Option.bind_some, b64uDecode_eq_some h,
    b64uEncode_eq, textEncode_ofBytes (b64_ascii b), Protocol.b64Decode_b64]

theorem readField_own {q : Members JsString}
    (h : parseRedemptionPayload (some (jsonParse (.obj q))) = .ok m)
    (hgo : unmarshalPayload (.obj q) = some p) (i : PayloadField) :
    readField (q.own i.name) i = some (m.value i) := by
  obtain ⟨j, hj, -⟩ := Option.bind_eq_some_iff.mp hgo
  simp only [parseRedemptionPayload, requireObject, jsonParse, bind_eq_ok, pure_eq_ok] at h
  obtain ⟨_, rfl, v, hv, hid, hhid, gid, hgid, aid, haid, key, hkey, line, hline, ts, hts, nonce,
    hnonce, _, -, _, -, _, -, _, -, _, -, rfl⟩ := h
  cases i with
  | version =>
    obtain ⟨n, hown, hn⟩ := own_of_int hv
    have hmem := Members.own_mem_under (find_payloadField .version) hown
    obtain ⟨x, hx⟩ := (version_kept hj).1 _ hmem rfl
    have hown' : q.own PayloadField.version.name = some (.num n) := hown
    simp [readField, RedemptionPayload.value, hown', hx, decodeUint64_eq hn hx]
  | timestamp =>
    obtain ⟨n, hown, hn⟩ := own_of_int hts
    have hmem := Members.own_mem_under (find_payloadField .timestamp) hown
    obtain ⟨x, hx⟩ := (timestamp_kept hj).1 _ hmem rfl
    have hown' : q.own PayloadField.timestamp.name = some (.num n) := hown
    simp [readField, RedemptionPayload.value, hown', hx, decodeInt64_eq hn hx]
  | hostID =>
    have hown : q.own PayloadField.hostID.name = some (.str hid) := own_of_str hhid
    rw [hown]
    rfl
  | grantID =>
    have hown : q.own PayloadField.grantID.name = some (.str gid) := own_of_str hgid
    rw [hown]
    rfl
  | agentID =>
    have hown : q.own PayloadField.agentID.name = some (.str aid) := own_of_str haid
    rw [hown]
    rfl
  | sshPublicKey =>
    have hown : q.own PayloadField.sshPublicKey.name = some (.str line) := own_of_str hline
    rw [hown]
    rfl
  | agentPublicKey =>
    obtain ⟨s, hown, hs⟩ := own_of_bytes hkey
    have hown' : q.own PayloadField.agentPublicKey.name = some (.str s) := hown
    simp only [readField, RedemptionPayload.value, hown', bytesOf_str hs, Option.map_some]
  | nonce =>
    obtain ⟨s, hown, hs⟩ := own_of_bytes hnonce
    have hown' : q.own PayloadField.nonce.name = some (.str s) := hown
    simp only [readField, RedemptionPayload.value, hown', bytesOf_str hs, Option.map_some]

-- ---------------------------------------------------------------------------
-- The two readings together
-- ---------------------------------------------------------------------------

structure SameEnvelope (svc : RedemptionRequest) (req : Signer.RedemptionRequest) : Prop where
  version : svc.payload.version = req.payload.version.toNat
  hostID : textEncode svc.payload.hostID = req.payload.hostID
  grantID : textEncode svc.payload.grantID = req.payload.grantID
  agentID : textEncode svc.payload.agentID = req.payload.agentID
  agentPublicKey : svc.payload.agentPublicKey = req.payload.agentPublicKey
  sshPublicKey : textEncode svc.payload.sshPublicKey = req.payload.sshPublicKey
  timestamp : svc.payload.timestamp = req.payload.timestamp.toInt
  nonce : svc.payload.nonce = req.payload.nonce
  agentSignature : svc.agentSignature = req.agentSignature
  proof : svc.proof = req.proof

theorem sameEnvelope_iff {svc : RedemptionRequest} {req : Signer.RedemptionRequest} :
    SameEnvelope svc req ↔ (∀ i, svc.payload.value i = goValue req.payload i) ∧
      svc.agentSignature = req.agentSignature ∧ svc.proof = req.proof := by
  constructor
  · rintro ⟨hv, hhost, hgrant, hagent, hkey, hssh, hts, hnonce, hsig, hproof⟩
    refine ⟨fun i => ?_, hsig, hproof⟩
    cases i <;> simp [RedemptionPayload.value, goValue, *]
  · rintro ⟨h, hsig, hproof⟩
    exact ⟨Value.number.inj (h .version), Value.text.inj (h .hostID), Value.text.inj (h .grantID),
      Value.text.inj (h .agentID), Value.bytes.inj (h .agentPublicKey),
      Value.text.inj (h .sshPublicKey), Value.number.inj (h .timestamp), Value.bytes.inj (h .nonce),
      hsig, hproof⟩

/-- In each field of the body and of its payload, the last value under any
spelling of the name reads like the last one under the name itself. -/
structure Unambiguous (raw : Doc) : Prop where
  payload : ∀ i, readField (Members.kept payloadFields JsonText.Doc.isNull
      (membersOf (Members.kept requestFields (fun _ => false) (membersOf (some raw)) .payload)) i)
        i =
    readField (Members.own
      (membersOf (Members.own (membersOf (some raw)) RequestField.payload.name))
      i.name) i
  agentSignature :
    bytesOf (Members.kept requestFields JsonText.Doc.isNull
      (membersOf (some raw)) .agentSignature) =
      bytesOf (Members.own (membersOf (some raw)) RequestField.agentSignature.name)
  proof :
    bytesOf (Members.kept requestFields JsonText.Doc.isNull (membersOf (some raw)) .proof) =
      bytesOf (Members.own (membersOf (some raw)) RequestField.proof.name)

theorem request_set_other (h : RequestJSON.set j v s = some t) :
    (j ≠ .payload → t.payload = s.payload) ∧
    (j ≠ .agentSignature → t.agentSignature = s.agentSignature) ∧
    (j ≠ .proof → t.proof = s.proof) := by
  cases j
  all_goals
    obtain ⟨x, -, rfl⟩ := Option.map_eq_some_iff.mp h
    simp

theorem find_requestField (i : RequestField) :
    requestFields.find (requestFields.name i) = some i := by
  cases i <;> decide

theorem payload_kept {o : Members JsString}
    (h : JsonText.assign requestFields RequestJSON.set {} o = some j)
    (hown : o.own RequestField.payload.name = some w) :
    (∃ p, unmarshalPayload w = some p) ∧
    ∃ v, o.kept requestFields (fun _ => false) .payload = some v ∧
      unmarshalPayload v = some j.payload := by
  have hself (v : Doc) (s t : RequestJSON) (hst : RequestJSON.set .payload v s = some t) :
      JsonText.overwrite (fun _ => false) unmarshalPayload s.payload v = some t.payload := by
    obtain ⟨x, hx, rfl⟩ := Option.map_eq_some_iff.mp hst
    exact hx
  obtain ⟨hall, hlast⟩ := JsonText.assign_kept hself
    (fun _ _ _ _ hj hs => (request_set_other hs).1 hj) h
  have hmem := Members.own_mem_under (find_requestField .payload) hown
  refine ⟨hall w hmem rfl, ?_⟩
  cases hk : o.kept requestFields (fun _ => false) .payload with
  | some v =>
    rw [hk] at hlast
    exact ⟨v, rfl, hlast⟩
  | none =>
    have hnil : o.under requestFields .payload = [] := by
      simpa [Members.kept, List.getLast?_eq_none_iff] using hk
    rw [hnil] at hmem
    cases hmem

theorem signature_kept {o : Members JsString}
    (h : JsonText.assign requestFields RequestJSON.set {} o = some j) :
    textOf (o.kept requestFields JsonText.Doc.isNull .agentSignature) = some j.agentSignature := by
  rw [textOf_eq]
  refine (JsonText.assign_kept (i := .agentSignature) (fun v s t hst => ?_)
    (fun _ _ _ _ hj hs => (request_set_other hs).2.1 hj) h).2
  obtain ⟨x, hx, rfl⟩ := Option.map_eq_some_iff.mp hst
  exact hx

theorem proof_kept {o : Members JsString}
    (h : JsonText.assign requestFields RequestJSON.set {} o = some j) :
    textOf (o.kept requestFields JsonText.Doc.isNull .proof) = some j.proof := by
  rw [textOf_eq]
  refine (JsonText.assign_kept (i := .proof) (fun v s t hst => ?_)
    (fun _ _ _ _ hj hs => (request_set_other hs).2.2 hj) h).2
  obtain ⟨x, hx, rfl⟩ := Option.map_eq_some_iff.mp hst
  exact hx

theorem parseRedemptionRequest_eq_ok {o : Members JsString}
    (h : parseRedemptionRequest (some (jsonParse (.obj o))) = .ok svc) :
    ∃ q, o.own RequestField.payload.name = some (.obj q) ∧
      parseRedemptionPayload (some (jsonParse (.obj q))) = .ok svc.payload ∧
      bytesOf (o.own RequestField.agentSignature.name) = some svc.agentSignature ∧
      bytesOf (o.own RequestField.proof.name) = some svc.proof := by
  simp only [parseRedemptionRequest, requireObject, jsonParse, bind_eq_ok, pure_eq_ok] at h
  obtain ⟨_, rfl, payload, hpayload, sig, hsig, proof, hproof, rfl⟩ := h
  obtain ⟨s, hs, hsig⟩ := own_of_bytes hsig
  obtain ⟨t, ht, hproof⟩ := own_of_bytes hproof
  have hs' : o.own RequestField.agentSignature.name = some (.str s) := hs
  have ht' : o.own RequestField.proof.name = some (.str t) := ht
  rw [hs', ht', get_jsonParse] at *
  have hname : o.own (js "payload") = o.own RequestField.payload.name := rfl
  rw [hname] at hpayload
  cases hq : o.own RequestField.payload.name with
  | none =>
    rw [hq] at hpayload
    cases hpayload
  | some w =>
    rw [hq] at hpayload
    cases w with
    | obj q => exact ⟨q, rfl, hpayload, bytesOf_str hsig, bytesOf_str hproof⟩
    | _ => cases hpayload

theorem sameEnvelope_iff_unambiguous
    (hsvc : parseRedemptionRequest (some (jsonParse raw)) = .ok svc)
    (hgo : unmarshalRequest raw = some req) : SameEnvelope svc req ↔ Unambiguous raw := by
  cases raw with
  | obj o =>
    obtain ⟨q, hq, hpayload, hsig, hproof⟩ := parseRedemptionRequest_eq_ok hsvc
    simp only [unmarshalRequest, RequestJSON.ofDoc, Option.bind_eq_bind,
      Option.bind_eq_some_iff] at hgo
    obtain ⟨j, hj, sig, hjsig, proof, hjproof, hgo⟩ := hgo
    cases hgo
    obtain ⟨⟨p, hp⟩, v, hv, hvp⟩ := payload_kept hj hq
    have hown := readField_own hpayload hp
    have hkept := readField_kept hvp
    have hksig : bytesOf (Members.kept requestFields JsonText.Doc.isNull o .agentSignature) =
        some sig := by
      rw [bytesOf, signature_kept hj, Option.bind_some, hjsig]
    have hkproof : bytesOf (Members.kept requestFields JsonText.Doc.isNull o .proof) =
        some proof := by
      rw [bytesOf, proof_kept hj, Option.bind_some, hjproof]
    rw [sameEnvelope_iff]
    constructor
    · rintro ⟨hvalues, rfl, rfl⟩
      refine ⟨fun i => ?_, hksig.trans hsig.symm, hkproof.trans hproof.symm⟩
      simp only [membersOf, hq, hv]
      exact (hkept i).trans ((congrArg some (hvalues i)).symm.trans (hown i).symm)
    · rintro ⟨hvalues, hs, hr⟩
      refine ⟨fun i => ?_, ?_, ?_⟩
      · have hi := hvalues i
        simp only [membersOf, hq, hv] at hi
        exact Option.some.inj ((hown i).symm.trans (hi.symm.trans (hkept i)))
      · exact Option.some.inj (hsig.symm.trans (hs.symm.trans hksig))
      · exact Option.some.inj (hproof.symm.trans (hr.symm.trans hkproof))
  | _ => cases hsvc

theorem checkRedeem_eq_ok {grantID : JsString}
    (h : checkRedeem C env grantID raw d = .ok (svc, keyFp)) :
    parseRedemptionRequest (some (jsonParse raw)) = .ok svc ∧ svc.payload.grantID = grantID ∧
      env.registeredAgentKey svc.payload.agentID =
        some (b64uEncode svc.payload.agentPublicKey) := by
  unfold checkRedeem at h
  split at h
  · cases h
  · unfold parseJsonObject at h
    split at h
    · cases h
    · rename_i body hbody
      split at hbody
      · rename_i o ho
        cases hbody
        simp only [bind_eq_ok, ensure_eq_ok, beq_iff_eq] at h
        obtain ⟨req, hreq, _, hgrant, _, -, _, -, _, -, _, -, _, -, _, -, h⟩ := h
        split at h
        · cases h
        · simp only [bind_eq_ok, ensure_eq_ok] at h
          obtain ⟨_, -, h⟩ := h
          split at h
          · cases h
          · rename_i key hkey
            simp only [bind_eq_ok, ensure_eq_ok, pure_eq_ok, beq_iff_eq] at h
            obtain ⟨_, rfl, _, -, _, -, h⟩ := h
            cases h
            simp only [HostDO.caught, mapError_eq_ok] at hreq
            exact ⟨ho ▸ hreq, hgrant, hkey⟩
      · cases hbody

/-- What is forwarded is the text that was checked, and the audit row names the
agent and the grant that were checked. -/
theorem redeem_forwards {grantID : JsString} (h : redeem C env grantID raw d t = (.ok sent, t')) :
    sent = raw ∧ ∃ svc row, parseRedemptionRequest (some (jsonParse raw)) = .ok svc ∧
      t'.redemptions = t.redemptions ++ [row] ∧ row.agentID = svc.payload.agentID ∧
      row.grantID = grantID ∧ svc.payload.grantID = grantID ∧
      env.registeredAgentKey row.agentID = some (b64uEncode svc.payload.agentPublicKey) := by
  unfold redeem at h
  split at h
  · cases h
  · rename_i svc keyFp hcheck
    obtain ⟨hsvc, hgrant, hkey⟩ := checkRedeem_eq_ok C hcheck
    split at h
    · cases h
    · cases h
      exact ⟨rfl, svc, _, hsvc, rfl, rfl, rfl, hgrant, hkey⟩

/-- The signer reads the envelope that the service checked and audited exactly
when no re-cased key takes the place of a field's own. -/
theorem envelope_read_alike_iff {grantID : JsString}
    (hfwd : redeem C env grantID raw d t = (.ok sent, t'))
    (hgo : unmarshalRequest sent = some req) :
    ∃ svc row, parseRedemptionRequest (some (jsonParse sent)) = .ok svc ∧
      t'.redemptions = t.redemptions ++ [row] ∧
      ((SameEnvelope svc req ∧ textEncode row.agentID = req.payload.agentID ∧
        env.registeredAgentKey row.agentID = some (b64uEncode req.payload.agentPublicKey) ∧
        row.grantID = grantID ∧ textEncode grantID = req.payload.grantID) ↔ Unambiguous sent) := by
  obtain ⟨rfl, svc, row, hsvc, hrow, hagent, hgrant, hurl, hkey⟩ := redeem_forwards C hfwd
  refine ⟨svc, row, hsvc, hrow, ?_⟩
  rw [← sameEnvelope_iff_unambiguous hsvc hgo]
  refine ⟨And.left, fun hsame => ⟨hsame, ?_, ?_, hgrant, ?_⟩⟩
  · rw [hagent, hsame.agentID]
  · rw [hkey, hsame.agentPublicKey]
  · rw [← hurl, hsame.grantID]

namespace Sample

structure Agent where
  id : JsString
  key : JsString
  digest : Bytes
  nonce : JsString
  signature : JsString
  proof : JsString

def agent : Agent where
  id := js "a_ni4ahvpqlgicuhdnv66jxjdssijppsvm"
  key := js "gTl3Dqh9F19Wo1Rmw0x-zMuNipG07jeiXfYPW4_Js5Q"
  digest := Signer.hex "6a3803d5f059902a1c6dafbc9ba4729212f7caac08634cc3ae76b27529f03827"
  nonce := js "AAECAwQFBgcICQoLDA0ODw"
  signature := js
    "d_In66lCgEGChsTR95_x0JAHEF6v8NOO-VzMPnsJJOjNdDfszcxJhSMw3GQkEBaktHwvqcBU-Cs8XCaxxC6GBw"
  proof := js "t49KCEuSOZ2IBzjcGng18iTtHen1HiIjqOpk9COOM2A"

def stranger : Agent where
  id := js "a_ojcwoicbea32nmzz7ccm43mrxngmcy5h"
  key := js "iodf_x6zhFFXes1a_uQFRWVo3XyJ4JCGOgVXvHr0nxc"
  digest := Signer.hex "72456720412037a6b339f884ce6d91bb4cc163a7dc3e4c58c658e6c2097b92a2"
  nonce := js "ICEiIyQlJicoKSorLC0uLw"
  signature := js
    "wi_U57vNoQUvMZ0ZhGIpsaTUFT5Vy0XQOsUxgRgtumwdRxUpWEdjKb5-E56gwQdh-TWqhbFWn8RWaN6CTJm1DA"
  proof := js "dWGZxEzqFEoRnBJp_Z00A_JRTK_dT7f8V4M3wxhxkMA"

/-- The service's crypto on the one agent it looks at. -/
def agentSubtle : Subtle where
  sha256 _ := agent.digest
  ed25519Verify _ _ _ := true

def Agent.payload (a : Agent) : Doc := .obj [
  (js "version", .num (.integer false 1)),
  (js "host_id", .str (ofBytes Signer.Sample.hostID)),
  (js "grant_id", .str (ofBytes Signer.Sample.grantID)),
  (js "agent_id", .str a.id),
  (js "agent_public_key", .str a.key),
  (js "ssh_public_key", .str (ofBytes (Protocol.publicSSHLine Signer.Sample.visitorKey))),
  (js "timestamp", .num (.integer false 1700000000)),
  (js "nonce", .str a.nonce)]

def envelope : Doc := .obj [
  (js "payload", agent.payload),
  (js "agent_signature", .str agent.signature),
  (js "proof", .str agent.proof)]

/-- The envelope, with the stranger's behind it under re-cased keys. -/
def recased : Doc := .obj [
  (js "payload", agent.payload),
  (js "agent_signature", .str agent.signature),
  (js "proof", .str agent.proof),
  (js "Payload", stranger.payload),
  (js "Agent_signature", .str stranger.signature),
  (js "Proof", .str stranger.proof)]

def registration : HostRegistration where
  version := 1
  hostID := ofBytes Signer.Sample.hostID
  identityPublicKey := Signer.Sample.identity
  sshCAPublicKey := ofBytes (Protocol.publicSSHLine Signer.Sample.caKey)
  sshHostPublicKey := ofBytes (Protocol.publicSSHLine Signer.Sample.hostKey)
  hostname := js "host.example"
  sshPort := 22
  sshUser := js "visitor"
  timestamp := 1700000000
  nonce := Signer.Sample.registrationNonce

def grant : Grant where
  version := 1
  hostID := ofBytes Signer.Sample.hostID
  grantID := ofBytes Signer.Sample.grantID
  sshUser := js "visitor"
  createdAt := 1700000000
  expiresAt := 1700001800

def hostObject : HostDO :=
  HostDO.putGrant (HostDO.grantRow grant Signer.Sample.grantSignature 1700000000)
    { HostDO.empty with
      host := some (HostDO.insertHost registration Signer.Sample.registrationSignature 1700000000) }

def redeemReading : RedeemReading where
  now := 1700000000
  registeredAgentKey id := if id = agent.id then some agent.key else none
  connected := true
  requestID := js "00000000-0000-4000-8000-000000000000"

theorem forwarded (raw : Doc)
    (h : (redeem agentSubtle redeemReading (ofBytes Signer.Sample.grantID) raw hostObject
    ⟨[], []⟩).1.isOk = true) : ∃ sent t', redeem agentSubtle redeemReading
      (ofBytes Signer.Sample.grantID) raw hostObject ⟨[], []⟩ = (.ok sent, t') := by
  generalize redeem agentSubtle redeemReading (ofBytes Signer.Sample.grantID) raw hostObject
    ⟨[], []⟩ = result at h
  obtain ⟨⟨_⟩ | ⟨sent⟩, t'⟩ := result
  · cases h
  · exact ⟨sent, t', rfl⟩

end Sample

/-- A plain envelope is the same to both. -/
theorem envelope_read_alike_iff_plain : ∃ sent t' req svc,
    redeem Sample.agentSubtle Sample.redeemReading (ofBytes Signer.Sample.grantID) Sample.envelope
      Sample.hostObject ⟨[], []⟩ = (.ok sent, t') ∧
    unmarshalRequest sent = some req ∧
    parseRedemptionRequest (some (jsonParse sent)) = .ok svc ∧ SameEnvelope svc req := by
  obtain ⟨sent, t', hfwd⟩ := Sample.forwarded Sample.envelope (by decide +kernel)
  obtain ⟨rfl, -⟩ := redeem_forwards Sample.agentSubtle hfwd
  have hgo : (unmarshalRequest Sample.envelope).isSome = true := by decide +kernel
  obtain ⟨req, hreq⟩ := Option.isSome_iff_exists.mp hgo
  obtain ⟨svc, row, hsvc, -, hiff⟩ := envelope_read_alike_iff Sample.agentSubtle hfwd hreq
  have hplain : Unambiguous Sample.envelope := by
    refine ⟨fun i => ?_, by decide +kernel, by decide +kernel⟩
    cases i <;> decide +kernel
  exact ⟨_, t', req, svc, hfwd, hreq, hsvc, (hiff.mpr hplain).1⟩

/-- The service checks and audits a registered agent; the signer certifies one
the service has never heard of. -/
theorem recased_envelope_forwarded : ∃ sent t' row req,
    redeem Sample.agentSubtle Sample.redeemReading (ofBytes Signer.Sample.grantID) Sample.recased
      Sample.hostObject ⟨[], []⟩ = (.ok sent, t') ∧
    t'.redemptions = [row] ∧ unmarshalRequest sent = some req ∧
    row.agentID = Sample.agent.id ∧ ofBytes req.payload.agentID = Sample.stranger.id ∧
    Sample.redeemReading.registeredAgentKey Sample.stranger.id = none := by
  obtain ⟨sent, t', hfwd⟩ := Sample.forwarded Sample.recased (by decide +kernel)
  obtain ⟨rfl, svc, row, hsvc, hrow, hagent, -⟩ := redeem_forwards Sample.agentSubtle hfwd
  have hgo : (unmarshalRequest Sample.recased).any (fun req =>
      ofBytes req.payload.agentID == Sample.stranger.id) = true := by decide +kernel
  obtain ⟨req, hreq, hid⟩ := Option.any_eq_true .. |>.mp hgo
  have haudit : ((parseRedemptionRequest (some (jsonParse Sample.recased))).toOption.all
      (·.payload.agentID == Sample.agent.id)) = true := by decide +kernel
  rw [hsvc] at haudit
  exact ⟨_, t', row, req, hfwd, hrow, hreq, hagent.trans (beq_iff_eq.mp haudit),
    beq_iff_eq.mp hid, by decide +kernel⟩

end Grantd.Service
