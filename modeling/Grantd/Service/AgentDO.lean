import Grantd.Service.Encoding
import Grantd.Service.Worker

/-!
# Challenges and agents

cloudflare/src/captcha.ts, cloudflare/src/durable-objects/challenge.ts and
cloudflare/src/durable-objects/agent.ts, and the route of
cloudflare/src/worker.ts that spends a challenge on a registration. An object
is what its storage holds under its one key.
-/

namespace Grantd.Service

open Base

-- ---------------------------------------------------------------------------
-- captcha.ts
-- ---------------------------------------------------------------------------

/-- The inner loop of `leadingZeroBits`, from bit `i - 1` down. -/
def zeroBits (byte : UInt8) : Nat → Nat
  | 0 => 0
  | i + 1 => if byte &&& (1 <<< UInt8.ofNat i) != 0 then 0 else zeroBits byte i + 1

def leadingZeroBits : Bytes → Nat
  | [] => 0
  | byte :: rest => if byte = 0 then 8 + leadingZeroBits rest else zeroBits byte 8

def maxPowNonceBytes : Nat := 64

variable (C : Subtle)

def verifyPow (powPrefix : Bytes) (difficultyBits : Int) (nonce : JsString) : Bool :=
  let nonceBytes := textEncode nonce
  if nonceBytes.length = 0 ∨ maxPowNonceBytes < nonceBytes.length then false
  else difficultyBits ≤ leadingZeroBits (C.sha256 (powPrefix ++ nonceBytes))

-- ---------------------------------------------------------------------------
-- ChallengeDO
-- ---------------------------------------------------------------------------

def challengeIDRe (s : JsString) : Bool := idRe (js "c_") 26 s

/-- `raw` is what `crypto.getRandomValues` filled in. -/
def newChallengeID (raw : Bytes) : JsString := js "c_" ++ base32Encode raw

structure PowEnv where
  powDifficultyBits : Option JsString
  powAllowLowDifficulty : Option JsString

structure Challenge where
  challengeID : JsString
  powPrefix : JsString
  difficultyBits : Int
  createdAt : Int
  expiresAt : Int
  consumedAt : Option Int
  deriving Inhabited

abbrev ChallengeDO := Option Challenge

namespace ChallengeDO

def ttlSeconds : Int := 600
def defaultDifficultyBits : Int := 20
def minProductionDifficultyBits : Int := 16

/-- `number` is JavaScript's `Number`. -/
def difficultyBits (number : JsString → JsNumber) (env : PowEnv) : Int :=
  match env.powDifficultyBits with
  | none | some [] => defaultDifficultyBits
  | some raw =>
    match number raw with
    | .other => defaultDifficultyBits
    | .integer n =>
      if n < 0 ∨ 32 < n then defaultDifficultyBits
      else if n < minProductionDifficultyBits ∧ env.powAllowLowDifficulty ≠ some (js "1") then
        defaultDifficultyBits
      else n

def create (bits : Int) (challengeID : JsString) (powPrefix : Bytes) (now : Int) :
    Response × ChallengeDO :=
  let state : Challenge := {
    challengeID, powPrefix := b64uEncode powPrefix, difficultyBits := bits
    createdAt := now, expiresAt := now + ttlSeconds, consumedAt := none }
  (.json (.obj [
    (js "challenge_id", .str challengeID),
    (js "version", .num (.integer 1)),
    (js "expires_at", .num (.integer state.expiresAt)),
    (js "pow", .obj [
      (js "prefix", .str state.powPrefix),
      (js "difficulty_bits", .num (.integer state.difficultyBits))])]) 201, some state)

def checkConsume (now : Int) (powNonce : JsString) (d : ChallengeDO) :
    Except Response Challenge := do
  match d with
  | none => throw (errorResponse .challengeNotFound "no such challenge")
  | some state =>
    ensure (now < state.expiresAt) (errorResponse .challengeNotFound "challenge has expired")
    ensure state.consumedAt.isNone
      (errorResponse .challengeConsumed "challenge has already been used")
    match b64uDecode state.powPrefix with
    -- A throw reaches the Worker, whose answer this is.
    | none => throw (errorResponse .internal "internal error")
    | some powPrefix =>
      ensure (verifyPow C powPrefix state.difficultyBits powNonce)
        (errorResponse .badAnswer "proof of work is invalid")
      pure state

def consume (now : Int) (powNonce : JsString) (d : ChallengeDO) : Response × ChallengeDO :=
  match checkConsume C now powNonce d with
  | .error r => (r, d)
  | .ok state =>
    (.json (.obj [(js "challenge_id", .str state.challengeID), (js "consumed", .bool true)]) 200,
      some { state with consumedAt := some now })

end ChallengeDO

-- ---------------------------------------------------------------------------
-- AgentDO
-- ---------------------------------------------------------------------------

def parseAgentRegistration (raw : Option Json) : Except Thrown AgentRegistration := do
  let o ← requireObject raw (js "registration")
  let m : AgentRegistration := {
    version := ← int o (js "version")
    agentID := ← str o (js "agent_id") 64
    publicKey := ← bytes o (js "public_key") 32
    challengeID := ← str o (js "challenge_id") 64
    powNonce := ← str o (js "pow_nonce") maxPowNonceBytes
    timestamp := ← int o (js "timestamp") }
  checkVersion m.version
  ensure (agentIDRe m.agentID) (bad (js "malformed agent_id"))
  pure m

structure AgentRecord where
  agentID : JsString
  publicKey : JsString
  createdAt : Int
  lastSeenAt : Int

abbrev AgentDO := Option AgentRecord

namespace AgentDO

def checkRegistration (now : Int) (body : Record) : Except Response AgentRegistration := do
  let reg ← HostDO.caught (parseAgentRegistration (body.get (js "registration")))
  let signature ← HostDO.caught (parseSignature body)
  let derived ← HostDO.caught (agentID C reg.publicKey)
  ensure (derived == reg.agentID) (errorResponse .idMismatch "agent_id does not match public_key")
  ensure (withinSkew now reg.timestamp skewRegistration)
    (errorResponse .staleTimestamp "registration timestamp is outside the allowed window")
  let message ← HostDO.hidden (canonicalAgentRegistration reg)
  ensure (verifyEd25519 C reg.publicKey message signature)
    (errorResponse .badSignature "registration signature does not verify")
  pure reg

def registered (reg : AgentRegistration) (existing : Bool) : Json := .obj [
  (js "agent_id", .str reg.agentID),
  (js "registered", .bool true),
  (js "existing", .bool existing)]

def register (now : Int) (body : Record) (d : AgentDO) : Response × AgentDO :=
  match checkRegistration C now body with
  | .error r => (r, d)
  | .ok reg =>
    let encoded := b64uEncode reg.publicKey
    match d with
    | some existing =>
      if existing.publicKey != encoded then
        (errorResponse .idMismatch "public key for this agent_id is immutable", d)
      else (.json (registered reg true) 200, some { existing with lastSeenAt := now })
    | none =>
      (.json (registered reg false) 201, some ⟨reg.agentID, encoded, now, now⟩)

end AgentDO

-- ---------------------------------------------------------------------------
-- worker.ts
-- ---------------------------------------------------------------------------

/-- A member of the registration, if it is a string. -/
def submitted (body : Record) (key : JsString) : JsString :=
  match body.get (js "registration") with
  | some (.obj reg) =>
    match Record.get reg key with
    | some (.str s) => s
    | _ => []
  | _ => []

structure Submission where
  agentID : JsString
  challengeID : JsString
  powNonce : JsString
  body : Record

/-- `POST /v1/agents`, up to the challenge. `allowed` is the limiter's answer;
of the request only the body is read. -/
def readSubmission (allowed : Bool) (req : Request) : Except Response Submission := do
  ensure allowed (errorResponse .rateLimited "too many registration attempts")
  let body ← readJson req
  let challengeID := submitted body (js "challenge_id")
  let agentID := submitted body (js "agent_id")
  ensure (agentIDRe agentID) (errorResponse .badRequest "malformed agent_id")
  ensure (challengeIDRe challengeID) (errorResponse .badRequest "malformed challenge_id")
  pure ⟨agentID, challengeID, submitted body (js "pow_nonce"), body⟩

mutual
/-- `b` may be what an object parses of `JSON.stringify(a)`. A number that is
not finite becomes `null`; everything else comes back. -/
def restringifies : Json → Json → Bool
  | .null, .null => true
  | .bool a, .bool b => a == b
  | .num a, .num b => a == b
  | .num .other, .null => true
  | .str a, .str b => a == b
  | .arr as, .arr bs => restringifiesItems as bs
  | .obj o, .obj o' => restringifiesMembers o o'
  | _, _ => false
def restringifiesItems : List Json → List Json → Bool
  | [], [] => true
  | a :: as, b :: bs => restringifies a b && restringifiesItems as bs
  | _, _ => false
def restringifiesMembers : List (JsString × Json) → List (JsString × Json) → Bool
  | [], [] => true
  | (k, a) :: o, (k', b) :: o' => k == k' && restringifies a b && restringifiesMembers o o'
  | _, _ => false
end

-- ---------------------------------------------------------------------------
-- What the objects accept
-- ---------------------------------------------------------------------------

variable {C}

theorem ChallengeDO.checkConsume_eq_ok {d : ChallengeDO}
    (h : ChallengeDO.checkConsume C now powNonce d = .ok state) :
    d = some state ∧ now < state.expiresAt ∧ state.consumedAt = none ∧
    ∃ powPrefix, b64uDecode state.powPrefix = some powPrefix ∧
      verifyPow C powPrefix state.difficultyBits powNonce = true := by
  cases d with
  | none => cases h
  | some c =>
    cases hdec : b64uDecode c.powPrefix with
    | none =>
      simp only [checkConsume, hdec, bind_eq_ok, ensure_eq_ok, throw_eq_ok, and_false,
        exists_false] at h
    | some powPrefix =>
      simp only [checkConsume, hdec, bind_eq_ok, ensure_eq_ok, pure_eq_ok] at h
      obtain ⟨_, hnow, _, hfree, _, hpow, rfl⟩ := h
      exact ⟨rfl, of_decide_eq_true hnow, Option.isNone_iff_eq_none.mp hfree, powPrefix, hdec, hpow⟩

theorem AgentDO.checkRegistration_eq_ok
    (h : AgentDO.checkRegistration C now body = .ok reg) :
    agentID C reg.publicKey = .ok reg.agentID ∧ reg.publicKey ≠ [] ∧
    submitted body (js "agent_id") = reg.agentID := by
  simp only [checkRegistration, HostDO.caught, HostDO.hidden, bind_eq_ok, mapError_eq_ok,
    ensure_eq_ok, pure_eq_ok, beq_iff_eq] at h
  obtain ⟨m, hparse, _, -, _, hderived, _, rfl, _, -, _, -, _, -, rfl⟩ := h
  cases hraw : body.get (js "registration") with
  | none =>
    rw [hraw] at hparse
    cases hparse
  | some v =>
    cases v with
    | obj o =>
      rw [hraw] at hparse
      simp only [parseAgentRegistration, requireObject, bind_eq_ok, ensure_eq_ok,
        pure_eq_ok] at hparse
      obtain ⟨o', ho, _, -, name, hname, key, hkey, _, -, _, -, _, -, _, -, _, -, rfl⟩ := hparse
      cases ho
      refine ⟨hderived, ?_, ?_⟩
      · obtain ⟨_, -, -, hlen⟩ := bytes_eq_ok.mp hkey
        rintro rfl
        cases hlen
      · simp only [submitted, hraw, (str_eq_ok.mp hname).1]
    | _ =>
      rw [hraw] at hparse
      cases hparse

theorem readSubmission_eq_ok (h : readSubmission allowed req = .ok sub) :
    submitted sub.body (js "agent_id") = sub.agentID ∧ agentIDRe sub.agentID = true := by
  simp only [readSubmission, bind_eq_ok, ensure_eq_ok, pure_eq_ok] at h
  obtain ⟨_, -, body, -, _, hid, _, -, rfl⟩ := h
  exact ⟨rfl, hid⟩

-- ---------------------------------------------------------------------------
-- Sent on as text
-- ---------------------------------------------------------------------------

theorem get_restringifiesMembers {o o' : Record} (h : restringifiesMembers o o' = true)
    (hget : o.get key = some a) : ∃ b, o'.get key = some b ∧ restringifies a b = true := by
  induction o generalizing o' with
  | nil => cases hget
  | cons m o ih =>
    obtain ⟨k, v⟩ := m
    cases o' with
    | nil => cases h
    | cons m' o' =>
      obtain ⟨k', b⟩ := m'
      simp only [restringifiesMembers, Bool.and_eq_true, beq_iff_eq] at h
      obtain ⟨⟨rfl, hv⟩, ho⟩ := h
      simp only [Record.get, List.find?_cons] at hget ⊢
      cases hk : k == key with
      | true =>
        simp only [hk, Option.map_some, Option.some.injEq] at hget ⊢
        exact ⟨b, rfl, hget ▸ hv⟩
      | false =>
        simp only [hk] at hget ⊢
        exact ih ho hget

theorem submitted_restringified {body body' : Record}
    (h : restringifiesMembers body body' = true) (hne : submitted body key ≠ []) :
    submitted body' key = submitted body key := by
  cases hreg : body.get (js "registration") with
  | none => simp [submitted, hreg] at hne
  | some v =>
    cases v with
    | obj reg =>
      cases hkey : Record.get reg key with
      | none => simp [submitted, hreg, hkey] at hne
      | some w =>
        cases w with
        | str s =>
          obtain ⟨v', hv', hreads⟩ := get_restringifiesMembers h hreg
          cases v' with
          | obj reg' =>
            obtain ⟨w', hw', hsame⟩ := get_restringifiesMembers hreads hkey
            cases w' with
            | str s' =>
              simp only [restringifies, beq_iff_eq] at hsame
              simp only [submitted, hreg, hkey, hv', hw', hsame]
            | _ => cases hsame
          | _ => cases hreads
        | _ => simp [submitted, hreg, hkey] at hne
    | _ => simp [submitted, hreg] at hne

end Grantd.Service
