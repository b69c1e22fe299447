import Grantd.Install.Agreement
import Grantd.Install.Enrolled
import Grantd.Install.Node
import Grantd.Install.ProofOfWork
import Grantd.Service.Registry
import Grantd.Service.RoundTrip

/-!
# An agent registers

`registerAgent` of install/redeem.mjs against the registry: it asks for a
challenge, counts up to a nonce, and posts a registration signed with the
agent's key. Others register, spend challenges of their own and try their luck
with this one in between. As long as nobody spends it and the clocks agree, the
service takes the registration and has the agent's key from then on.
-/

namespace Grantd.Install

open Base Service
open ProofOfWork (solvePow accepted)

-- ---------------------------------------------------------------------------
-- redeem.mjs
-- ---------------------------------------------------------------------------

/-- What `loadIdentity` returns; `sign` is `signRaw` with its key. -/
structure NodeIdentity where
  raw : Bytes
  sign : Bytes → Bytes

section
variable (N : Node) (otherwise : JsValue → Bytes → Nat → Option JsString)

/-- `solvePow` on what an answer holds. What it finds for a difficulty that is
not a whole number is a parameter; `none` is a loop that still counts. -/
def Node.solve (powPrefix : Bytes) (bits : JsValue) (turns : Nat) : Option JsString :=
  match bits with
  | some (.num (.integer (.ofNat n))) => (solvePow N.sha256 powPrefix n turns).map ofBytes
  | v => otherwise v powPrefix turns

def Node.agentCanonical (agentID : JsString) (raw : Bytes) (challengeID : JsValue)
    (nonce : JsString) (timestamp : Int) : Option Bytes := do
  cbe (js "grantd/v1/agent-register") [
    ← N.fU64 "version" (some (.num (.integer 1))),
    ← N.fString "agent_id" (some (.str agentID)),
    ← fBytes (js "public_key") raw,
    ← N.fString "challenge_id" challengeID,
    ← N.fString "pow_nonce" (some (.str nonce)),
    ← N.fU64 "timestamp" (some (.num (.integer timestamp)))]

def registrationBody (agentID : JsString) (raw : Bytes) (challengeID : Json) (nonce : JsString)
    (timestamp : Int) (signature : Bytes) : Record := [
  (js "registration", .obj [
    (js "version", .num (.integer 1)),
    (js "agent_id", .str agentID),
    (js "public_key", .str (ofBytes (Protocol.b64 raw))),
    (js "challenge_id", challengeID),
    (js "pow_nonce", .str nonce),
    (js "timestamp", .num (.integer timestamp))]),
  (js "signature", .str (ofBytes (Protocol.b64 signature)))]

def Node.registerAgent (ident : NodeIdentity) (agentID : JsString) (challenge : Json) (turns : Nat)
    (timestamp : Int) : Except Failure (Option Record) := do
  let pow := prop (some challenge) "pow"
  let powPrefix ← orThrow (N.buffer N.base64url (prop pow "prefix"))
  match N.solve otherwise powPrefix (prop pow "difficulty_bits") turns with
  | none => pure none
  | some nonce =>
    let challengeID := prop (some challenge) "challenge_id"
    let canonical ← orThrow (N.agentCanonical agentID ident.raw challengeID nonce timestamp)
    -- An `undefined` challenge id made `fString` throw.
    let challengeID ← orThrow challengeID
    pure (some (registrationBody agentID ident.raw challengeID nonce timestamp
      (ident.sign canonical)))

end

structure NodeIdentity.Works (ident : NodeIdentity) (N : Node) (C : Subtle) : Prop where
  sha256 : N.sha256 = C.sha256
  digest : ∀ b, (C.sha256 b).length = 32
  raw : ident.raw.length = 32
  signature : ∀ m, (ident.sign m).length = 64 ∧ C.ed25519Verify ident.raw m (ident.sign m) = true

-- ---------------------------------------------------------------------------
-- The statement that is signed
-- ---------------------------------------------------------------------------

def Ascii (b : Bytes) : Prop := ∀ c ∈ b, c ≠ 0 ∧ c < 0x80

theorem exists_text (h : Ascii b) :
    ∃ s, jsString s = ofBytes b ∧ goString s = b ∧ (Value.text s).Sound := by
  induction b with
  | nil => exact ⟨[], rfl, rfl, by simp [Value.Sound]⟩
  | cons c b ih =>
    obtain ⟨s, hjs, hgo, hs⟩ := ih fun d hd => h d (.tail _ hd)
    obtain ⟨hne, hlt⟩ := h c (.head _)
    have hlt : c.toNat < 0x80 := UInt8.lt_iff_toNat_lt.mp hlt
    have hchar : (Char.ofNat c.toNat).toNat = c.toNat := by
      rw [Char.ofNat, dif_pos (.inl (by omega))]
      rfl
    refine ⟨Char.ofNat c.toNat :: s, ?_, ?_, ?_⟩
    · rw [jsString, List.flatMap_cons, hchar, utf16, if_pos (by omega)]
      simp only [List.cons_append, List.nil_append]
      exact congrArg₂ List.cons (UInt16.toNat_inj.mp (by simp)) hjs
    · rw [goString, List.flatMap_cons, hchar, utf8, if_pos hlt]
      exact congrArg₂ List.cons (by simp) hgo
    · refine List.forall_mem_cons.mpr ⟨?_, hs⟩
      rw [hchar]
      exact fun h0 => hne (UInt8.toNat_inj.mp h0)

theorem fString_str (N : Node) (name : String) (s : JsString) :
    N.fString name (some (.str s)) = fString (js name) s := by
  simp only [Node.fString, Node.buffer, fString, Option.bind_eq_bind, Option.bind_some]

theorem fU64_integer (N : Node) (name : String) (z : Int) :
    N.fU64 name (some (.num (.integer z))) = fU64 (js name) z := by
  simp only [Node.fU64, Node.bigInt, Option.bind_eq_bind, Option.bind_some]

theorem agentCanonical_node (N : Node) (a c n : List Char) (raw : Bytes) (ts : Nat) :
    N.agentCanonical (jsString a) raw (some (.str (jsString c))) (jsString n) ts =
      (Assignment.agentRegistration 1 a raw c n ts).node := by
  simp only [Node.agentCanonical, Assignment.node, Assignment.context, Assignment.fields,
    List.mapM_cons, List.mapM_nil, nodeField, fString_str, fU64_integer, Option.bind_eq_bind,
    Option.pure_def, Option.bind_some, Option.bind_assoc, Int.natCast_one]

theorem agentCanonical_eq {N : Node} {agentID challengeID nonce : Bytes} (hagent : Ascii agentID)
    (hchallenge : Ascii challengeID) (hnonce : Ascii nonce) (hts : SafeNat timestamp)
    (hlen : agentID.length < 2 ^ 32 ∧ raw.length < 2 ^ 32 ∧ challengeID.length < 2 ^ 32 ∧
      nonce.length < 2 ^ 32) :
    ∃ m, N.agentCanonical (ofBytes agentID) raw (some (.str (ofBytes challengeID)))
        (ofBytes nonce) timestamp = some m ∧
      canonicalAgentRegistration ⟨1, ofBytes agentID, raw, ofBytes challengeID, ofBytes nonce,
        timestamp⟩ = .ok m := by
  obtain ⟨a, hajs, hago, hasound⟩ := exists_text hagent
  obtain ⟨c, hcjs, hcgo, hcsound⟩ := exists_text hchallenge
  obtain ⟨n, hnjs, hngo, hnsound⟩ := exists_text hnonce
  obtain ⟨hsafe, hnonneg⟩ := hts
  obtain ⟨ts, rfl⟩ := Int.eq_ofNat_of_zero_le hnonneg
  let asg : Assignment := .agentRegistration 1 a raw c n ts
  have hmax : ts ≤ 2 ^ 63 - 1 := by
    simp only [isSafeInteger, maxSafeInteger, Bool.and_eq_true] at hsafe
    have := of_decide_eq_true hsafe.2
    omega
  have hsound : ∀ f ∈ asg.fields, f.2.Sound := by
    simp only [asg, Assignment.fields, List.forall_mem_cons]
    exact ⟨by simp [Value.Sound], hasound, trivial, hcsound, hnsound, hmax, by simp⟩
  have hshort : ∀ f ∈ asg.fields, f.2.Short := by
    simp only [asg, Assignment.fields, List.forall_mem_cons, Value.Short, Value.wire, hago, hcgo,
      hngo, Code.length_bigEndian]
    exact ⟨by decide, hlen.1, hlen.2.1, hlen.2.2.1, hlen.2.2.2, by decide, by simp⟩
  refine ⟨asg.bytes, ?_, ?_⟩
  · rw [← hajs, ← hcjs, ← hnjs]
    rw [agentCanonical_node, Assignment.node_eq hsound, if_pos hshort]
  · rw [← hajs, ← hcjs, ← hnjs]
    exact toOption_eq_some.mp (Assignment.ts_eq_some.mpr ⟨hsound, rfl⟩)

theorem Ascii.append (ha : Ascii a) (hb : Ascii b) : Ascii (a ++ b) := by
  intro c hc
  rcases List.mem_append.mp hc with hc | hc
  · exact ha c hc
  · exact hb c hc

theorem ascii_of_all (h : (b.all fun c => c != 0 && c < 0x80) = true) : Ascii b := by
  intro c hc
  simpa using List.all_eq_true.mp h c hc

theorem ascii_b32 (b : Bytes) : Ascii (Protocol.b32 b) := by
  have halphabet : Ascii Protocol.b32Alphabet := ascii_of_all (by decide)
  intro c hc
  exact halphabet c (Rfc4648.mem_encode (by decide) hc)

theorem length_b32_id (tag : GoString) (hb : Rfc4648.groups 5 b.length = n) :
    (tag ++ Protocol.b32 b).length = tag.length + n := by
  simpa [Protocol.b32] using hb

-- ---------------------------------------------------------------------------
-- What the agent object reads
-- ---------------------------------------------------------------------------

theorem str_of_restringifies (h : restringifies (.str s) b = true) : b = .str s := by
  cases b with
  | str s' =>
    simp only [restringifies, beq_iff_eq] at h
    rw [h]
  | _ => cases h

theorem integer_of_restringifies (h : restringifies (.num (.integer z)) b = true) :
    b = .num (.integer z) := by
  cases b with
  | num n =>
    simp only [restringifies, beq_iff_eq] at h
    rw [h]
  | _ => cases h

theorem obj_of_restringifies (h : restringifies (.obj o) b = true) :
    ∃ o', b = .obj o' ∧ restringifiesMembers o o' = true := by
  cases b with
  | obj o' => exact ⟨o', rfl, h⟩
  | _ => cases h

mutual
theorem restringifies_refl : ∀ v, restringifies v v = true
  | .null => rfl
  | .bool b => beq_self_eq_true b
  | .num n => beq_self_eq_true n
  | .str s => beq_self_eq_true s
  | .arr items => restringifiesItems_refl items
  | .obj o => restringifiesMembers_refl o
theorem restringifiesItems_refl : ∀ items, restringifiesItems items items = true
  | [] => rfl
  | v :: items => by
    rw [restringifiesItems, restringifies_refl v, restringifiesItems_refl items]
    rfl
theorem restringifiesMembers_refl : ∀ o, restringifiesMembers o o = true
  | [] => rfl
  | (k, v) :: o => by
    rw [restringifiesMembers, beq_self_eq_true, restringifies_refl v, restringifiesMembers_refl o]
    rfl
end

theorem get_str {o o' : Record} (h : restringifiesMembers o o' = true)
    (hget : o.get key = some (.str s)) : o'.get key = some (.str s) := by
  obtain ⟨b, hb, hsame⟩ := get_restringifiesMembers h hget
  rw [hb, str_of_restringifies hsame]

theorem get_integer {o o' : Record} (h : restringifiesMembers o o' = true)
    (hget : o.get key = some (.num (.integer z))) : o'.get key = some (.num (.integer z)) := by
  obtain ⟨b, hb, hsame⟩ := get_restringifiesMembers h hget
  rw [hb, integer_of_restringifies hsame]

theorem checkRegistration_body {C : Subtle} {N : Node} {ident : NodeIdentity}
    {a c nonce : Bytes} {body : Record} (hworks : ident.Works N C)
    (hown : agentID C ident.raw = .ok (ofBytes a)) (hre : agentIDRe (ofBytes a) = true)
    (hlen : a.length ≤ 64 ∧ c.length ≤ 64 ∧ nonce.length ≤ maxPowNonceBytes)
    (hts : SafeNat timestamp) (hskew : withinSkew now timestamp skewRegistration = true)
    (hcanonical : canonicalAgentRegistration ⟨1, ofBytes a, ident.raw, ofBytes c, ofBytes nonce,
      timestamp⟩ = .ok m)
    (hsent : restringifiesMembers (registrationBody (ofBytes a) ident.raw (.str (ofBytes c))
      (ofBytes nonce) timestamp (ident.sign m)) body = true) :
    AgentDO.checkRegistration C now body =
      .ok ⟨1, ofBytes a, ident.raw, ofBytes c, ofBytes nonce, timestamp⟩ := by
  obtain ⟨b, hb, hreg⟩ : ∃ b, body.get (js "registration") = some b ∧ _ :=
    get_restringifiesMembers hsent rfl
  obtain ⟨o, rfl, ho⟩ := obj_of_restringifies hreg
  have hsignature : body.get (js "signature") =
      some (.str (ofBytes (Protocol.b64 (ident.sign m)))) := get_str hsent rfl
  obtain ⟨hsiglen, hverify⟩ := hworks.signature m
  have hlength (b : Bytes) : (ofBytes b).length = b.length := by simp [ofBytes]
  have hparse : parseAgentRegistration (some (.obj o)) =
      .ok ⟨1, ofBytes a, ident.raw, ofBytes c, ofBytes nonce, timestamp⟩ := by
    simp only [parseAgentRegistration, requireObject, bind_eq_ok, pure_eq_ok, checkVersion,
      ensure_eq_ok, beq_iff_eq]
    exact ⟨_, rfl, _, int_eq_ok.mpr ⟨get_integer ho rfl, by decide⟩,
      _, str_eq_ok.mpr ⟨get_str ho rfl, by rw [hlength]; exact hlen.1⟩,
      _, bytes_b64uEncode (b64uEncode_eq _ ▸ get_str ho rfl) hworks.raw (by decide),
      _, str_eq_ok.mpr ⟨get_str ho rfl, by rw [hlength]; exact hlen.2.1⟩,
      _, str_eq_ok.mpr ⟨get_str ho rfl, by rw [hlength]; exact hlen.2.2⟩,
      _, int_eq_ok.mpr ⟨get_integer ho rfl, hts⟩, (), rfl, (), hre, rfl⟩
  have hsig : parseSignature body = .ok (ident.sign m) :=
    bytes_b64uEncode (b64uEncode_eq _ ▸ hsignature) hsiglen (by decide)
  simp only [AgentDO.checkRegistration, HostDO.caught, HostDO.hidden, bind_eq_ok, mapError_eq_ok,
    ensure_eq_ok, pure_eq_ok, beq_iff_eq, hb]
  exact ⟨_, hparse, _, hsig, _, hown, (), rfl, (), hskew, _, hcanonical, (), by
    simp [verifyEd25519, hworks.raw, hsiglen, hverify], rfl⟩

-- ---------------------------------------------------------------------------
-- The nonce
-- ---------------------------------------------------------------------------

open ProofOfWork (Finds) in
theorem solvePow_finds {C : Subtle} (hsha : ∀ b, (C.sha256 b).length = 32) (hbits : bits ≤ 32) :
    Finds (accepted C powPrefix bits) (· ≤ 2 ^ 53) (solvePow C.sha256 powPrefix bits) := by
  refine ProofOfWork.counts_node.finds (p := ProofOfWork.passes C powPrefix bits) (fun i => ?_)
    (ProofOfWork.accepted_intText C powPrefix bits)
  exact congrArg some (ProofOfWork.accepts_eq (by rw [hsha]; omega) (by omega)).1

theorem exists_nonce {C : Subtle} (hsha : ∀ b, (C.sha256 b).length = 32) (hbits : bits ≤ 32)
    (h : ∃ i ≤ 2 ^ 53, accepted C powPrefix bits (Decimal.text i) = true) :
    ∃ turns i, solvePow C.sha256 powPrefix bits turns = some (Decimal.text i) ∧
      accepted C powPrefix bits (Decimal.text i) = true := by
  classical
  obtain ⟨i, hi, haccepted⟩ := h
  have hex : ∃ i, accepted C powPrefix bits (Decimal.text i) = true := ⟨i, haccepted⟩
  refine ⟨Nat.find hex + 1, Nat.find hex, ?_, Nat.find_spec hex⟩
  refine (solvePow_finds hsha hbits).first _ (Nat.le_trans (Nat.find_min' hex haccepted) hi)
    (Nat.find_spec hex) fun j hj => ?_
  exact Bool.eq_false_iff.mpr (Nat.find_min hex hj)

theorem ascii_text (i : Nat) : Ascii (Decimal.text i) := by
  intro c hc
  refine ⟨?_, ProofOfWork.intText_ascii i c hc⟩
  rintro rfl
  rcases Decimal.mem_intText (i := i) hc with h | h
  · cases h
  · cases h

theorem length_of_accepted {C : Subtle} (h : accepted C powPrefix bits (Decimal.text i) = true) :
    (Decimal.text i).length ≤ maxPowNonceBytes := by
  have h := h.symm.trans (ProofOfWork.accepted_intText C powPrefix bits i)
  exact of_decide_eq_true (Bool.and_eq_true_iff.mp h.symm).1

-- ---------------------------------------------------------------------------
-- The registry in the meantime
-- ---------------------------------------------------------------------------

/-- An alarm does not go off before the time that `create` set it to. -/
def onTime (s : Registry) : RegistryOp → Bool
  | .alarm id now => (s.challenges id).all fun c =>
      c.createdAt + (ChallengeDO.ttlSeconds + 60) ≤ now
  | .create .. | .submit .. | .register .. => true

/-- A submission whose `consume` is answered ok spends its challenge. -/
def spends (C : Subtle) (challengeID : JsString) (s : Registry) : RegistryOp → Bool
  | .submit allowed req now _ =>
    match readSubmission allowed req with
    | .ok sub => sub.challengeID == challengeID &&
        (ChallengeDO.consume C now sub.powNonce (s.challenges challengeID)).1.ok
    | .error _ => false
  | .create .. | .register .. | .alarm .. => false

/-- What may go on up to the time `posted`: anything but that the challenge is
spent. -/
def Meantime (C : Subtle) (challengeID : JsString) (posted : Int) (s : Registry) (op : RegistryOp) :
    Prop :=
  FreshIDs s op ∧ op.now ≤ posted ∧ onTime s op = true ∧
    spends C challengeID s op = false

instance (C : Subtle) (challengeID : JsString) (posted : Int) (s : Registry) (op : RegistryOp) :
    Decidable (Meantime C challengeID posted s op) :=
  inferInstanceAs (Decidable (_ ∧ _ ∧ _ ∧ _))

section
variable {C : Subtle} {number : JsString → JsNumber} {s t : Registry}

theorem invariant_of_reachable (hs : (registering C number).Reachable FreshIDs s) :
    s.Spends C ∧ s.Paid C := by
  refine hs.invariant (I := fun s => s.Spends C ∧ s.Paid C) ?_ ?_
  · rintro s rfl
    exact ⟨⟨by simp [Registry.empty], by simp [Registry.empty, Registry.spent], .nil,
      by simp [Registry.empty]⟩, ⟨.nil, by simp [Registry.empty, Registry.payments],
      by simp [Registry.empty], by simp [Registry.empty]⟩⟩
  · rintro s op t ⟨hspends, hpaid⟩ hok hstep
    exact Registry.step_invariant hspends hpaid hok hstep

theorem consume_spares {sub : Submission} (now : Int) (reparsed : Record)
    (h : (ChallengeDO.consume C now sub.powNonce (s.challenges sub.challengeID)).1.ok = false) :
    s.consume C sub now reparsed = s := by
  rcases ChallengeDO.consume_cases (C := C) now sub.powNonce (s.challenges sub.challengeID) with
    ⟨-, hsame⟩ | ⟨c, -, hok, -⟩
  · simp only [Registry.consume, h, hsame, Function.update_eq_self, Bool.false_eq_true, if_false]
  · rw [h] at hok
    cases hok

theorem spared_step {id : JsString} (hok : Meantime C id posted s op)
    (hstep : s.step C number op = some t) (hcreated : id ∈ s.created)
    (hc : s.challenges id = some c) (hposted : posted < c.createdAt + ChallengeDO.ttlSeconds) :
    t.challenges id = some c ∧ id ∈ t.created := by
  obtain ⟨hfresh, htime, halarm, hspares⟩ := hok
  cases op with
  | create env raw powPrefix now =>
    cases hstep
    have hne : id ≠ newChallengeID raw := fun heq => hfresh (heq ▸ hcreated)
    exact ⟨(Function.update_of_ne hne ..).trans hc, List.mem_cons_of_mem _ hcreated⟩
  | submit allowed req now reparsed =>
    cases hread : readSubmission allowed req with
    | error r =>
      simp only [Registry.step, hread, Option.some.injEq] at hstep
      exact hstep ▸ ⟨hc, hcreated⟩
    | ok sub =>
      simp only [Registry.step, hread] at hstep
      simp only [spends, hread, Bool.and_eq_false_imp, beq_iff_eq] at hspares
      split at hstep <;> cases hstep
      by_cases hid : sub.challengeID = id
      · subst hid
        rw [consume_spares now reparsed (hspares rfl)]
        exact ⟨hc, hcreated⟩
      · rcases Registry.consume_cases (C := C) sub now reparsed s with hno | ⟨c', -, hspent⟩
        · rw [hno]
          exact ⟨hc, hcreated⟩
        · rw [hspent]
          exact ⟨(Function.update_of_ne (Ne.symm hid) ..).trans hc, hcreated⟩
  | register i now =>
    obtain ⟨f, -, rfl⟩ := Option.map_eq_some_iff.mp hstep
    exact ⟨hc, hcreated⟩
  | alarm id' now =>
    cases hstep
    have hne : id ≠ id' := by
      rintro rfl
      have hlate := of_decide_eq_true (by simpa [onTime, hc] using halarm)
      simp only [RegistryOp.now] at htime
      omega
    exact ⟨(Function.update_of_ne hne ..).trans hc, hcreated⟩

theorem spared_run {id : JsString} (hcreated : id ∈ s.created) (hc : s.challenges id = some c)
    (hposted : posted < c.createdAt + ChallengeDO.ttlSeconds)
    (hrun : (registering C number).Run (Meantime C id posted) s t) :
    t.challenges id = some c ∧ id ∈ t.created := by
  induction hrun with
  | refl => exact ⟨hc, hcreated⟩
  | step _ hok hstep ih => exact spared_step hok hstep ih.2 ih.1 hposted

theorem kept_run {id : JsString} (hrun : (registering C number).Run FreshIDs s t)
    (hr : s.agents id = some r) : ∃ r', t.agents id = some r' ∧ r.Same r' := by
  induction hrun with
  | refl => exact ⟨r, hr, rfl, rfl⟩
  | step _ _ hstep ih =>
    obtain ⟨r', hr', hid, hkey⟩ := ih
    obtain ⟨r'', hr'', hid', hkey'⟩ := Registry.step_keeps hstep hr'
    exact ⟨r'', hr'', hid'.trans hid, hkey'.trans hkey⟩

-- ---------------------------------------------------------------------------
-- The registration
-- ---------------------------------------------------------------------------

structure Posts (body : Record) (req : Request) : Prop where
  json : req.json = some (.obj body)
  size : req.size ≤ maxRequestBytes
  length : req.contentLength.any ((maxRequestBytes : Int) < ·) = false

theorem readSubmission_body {a c nonce : Bytes} (hreq : Posts (registrationBody (ofBytes a) raw
      (.str (ofBytes c)) (ofBytes nonce) timestamp signature) req)
    (ha : agentIDRe (ofBytes a) = true) (hc : challengeIDRe (ofBytes c) = true) :
    readSubmission true req = .ok ⟨ofBytes a, ofBytes c, ofBytes nonce,
      registrationBody (ofBytes a) raw (.str (ofBytes c)) (ofBytes nonce) timestamp signature⟩ := by
  have hread : readJson req = .ok (registrationBody (ofBytes a) raw (.str (ofBytes c))
      (ofBytes nonce) timestamp signature) := by
    simp only [readJson, bind_eq_ok, ensure_eq_ok, hreq.json]
    exact ⟨(), by simp [hreq.length], (), by simp [hreq.size], rfl⟩
  simp only [readSubmission, bind_eq_ok, ensure_eq_ok, pure_eq_ok, hread]
  exact ⟨(), trivial, _, rfl, (), ha, (), hc, rfl⟩

theorem agents_submit (h : s.step C number (.submit allowed req now reparsed) = some t) :
    t.agents = s.agents := by
  cases hread : readSubmission allowed req with
  | error r =>
    simp only [Registry.step, hread, Option.some.injEq] at h
    rw [h]
  | ok sub =>
    simp only [Registry.step, hread] at h
    split at h <;> cases h
    rcases Registry.consume_cases (C := C) sub now reparsed s with hno | ⟨c, -, hspent⟩
    · rw [hno]
    · rw [hspent]

theorem consume_inFlight {sub : Submission} {c : Challenge}
    (hc : s.challenges sub.challengeID = some c) (hnow : now < c.expiresAt)
    (hfree : c.consumedAt = none) (hpre : b64uDecode c.powPrefix = some powPrefix)
    (hpow : verifyPow C powPrefix c.difficultyBits sub.powNonce = true) (reparsed : Record) :
    (s.consume C sub now reparsed).inFlight =
      ⟨sub.agentID, sub.challengeID, reparsed⟩ :: s.inFlight := by
  have hcheck : ChallengeDO.checkConsume C now sub.powNonce (some c) = .ok c := by
    simp only [ChallengeDO.checkConsume, hpre, bind_eq_ok, ensure_eq_ok, pure_eq_ok]
    exact ⟨(), decide_eq_true hnow, (), by simp [hfree], (), hpow, trivial⟩
  have hok : (ChallengeDO.consume C now sub.powNonce (some c)).1.ok = true := by
    rw [ChallengeDO.consume, hcheck]
    rfl
  simp only [Registry.consume, hc, hok, if_true]

/-- A registration that is accepted puts the key there, or finds the record of
another key with the same id. -/
theorem register_accepted (hpaid : s.Paid C) {f : InFlight} (i : Nat)
    (hcheck : AgentDO.checkRegistration C now f.body = .ok reg) (hid : reg.agentID = f.agentID) :
    ((AgentDO.register C now f.body (s.agents f.agentID)).1.ok = true ∧
      ∃ r, (s.register C i f now).agents f.agentID = some r ∧ r.agentID = f.agentID ∧
        r.publicKey = b64uEncode reg.publicKey) ∨
    ∃ r key, s.agents f.agentID = some r ∧ b64uDecode r.publicKey = some key ∧
      key ≠ reg.publicKey ∧ agentID C key = .ok f.agentID := by
  cases hd : s.agents f.agentID with
  | none =>
    refine .inl ⟨by simp [AgentDO.register, hcheck, Response.ok], ?_⟩
    exact ⟨⟨reg.agentID, b64uEncode reg.publicKey, now, now⟩,
      by simp [Registry.register, hd, AgentDO.register, hcheck], hid, rfl⟩
  | some r =>
    obtain ⟨⟨hname, key, hdec, hown⟩, -⟩ := hpaid.records _ r hd
    by_cases hkey : r.publicKey = b64uEncode reg.publicKey
    · refine .inl ⟨by simp [AgentDO.register, hcheck, hkey, Response.ok], ?_⟩
      exact ⟨{ r with lastSeenAt := now },
        by simp [Registry.register, hd, AgentDO.register, hcheck, hkey], hname, hkey⟩
    · refine .inr ⟨r, key, rfl, hdec, fun heq => hkey ?_, hown⟩
      rw [← heq]
      exact b64uDecode_eq_some hdec

theorem agent_id {N : Node} {ident : NodeIdentity} (hworks : ident.Works N C) :
    ∃ a, N.idOf "a" ident.raw = ofBytes a ∧ Ascii a ∧ a.length = 34 ∧
      agentIDRe (ofBytes a) = true ∧ agentID C ident.raw = .ok (ofBytes a) := by
  have hgroups : Rfc4648.groups 5 ((C.sha256 ident.raw).take 20).length = 32 := by
    simp [hworks.digest, Rfc4648.groups]
  have hid : js "a_" ++ base32Encode ((C.sha256 ident.raw).take 20) =
      ofBytes (lit "a_" ++ Protocol.b32 ((C.sha256 ident.raw).take 20)) := by
    rw [base32Encode_eq]
    simp [js, ofBytes]
  refine ⟨lit "a_" ++ Protocol.b32 ((C.sha256 ident.raw).take 20), ?_, ?_,
    length_b32_id _ hgroups, ?_, ?_⟩
  · rw [Node.idOf, hworks.sha256, ← hid]
    rfl
  · exact .append (ascii_of_all (by decide)) (ascii_b32 _)
  · rw [agentIDRe, js, idRe_ofBytes]
    exact Protocol.matchesID_b32 _ hgroups
  · rw [← hid]
    simp only [agentID, idMaterial, bind_eq_ok, ensure_eq_ok, pure_eq_ok, beq_iff_eq]
    exact ⟨_, ⟨(), hworks.raw, rfl⟩, rfl⟩

theorem challenge_id {raw : Bytes} (hraw : raw.length = 16) :
    ∃ c, newChallengeID raw = ofBytes c ∧ Ascii c ∧ c.length = 28 ∧
      challengeIDRe (ofBytes c) = true := by
  have hgroups : Rfc4648.groups 5 raw.length = 26 := by simp [hraw, Rfc4648.groups]
  refine ⟨lit "c_" ++ Protocol.b32 raw, ?_, ?_, length_b32_id _ hgroups, ?_⟩
  · rw [newChallengeID, base32Encode_eq]
    simp [js, ofBytes]
  · exact .append (ascii_of_all (by decide)) (ascii_b32 _)
  · rw [challengeIDRe, js, idRe_ofBytes]
    exact Protocol.matchesID_b32 _ hgroups

theorem registerAgent_eq_ok {N : Node} {ident : NodeIdentity} {bits : Nat} {agentID : JsString}
    {challenge : Json}
    (hpre : prop (prop (some challenge) "pow") "prefix" = some (.str (b64uEncode powPrefix)))
    (hbits : prop (prop (some challenge) "pow") "difficulty_bits" = some (.num (.integer bits)))
    (hid : prop (some challenge) "challenge_id" = some (.str challengeID))
    (hsolve : solvePow N.sha256 powPrefix bits turns = some nonce)
    (hcanonical : N.agentCanonical agentID ident.raw (some (.str challengeID)) (ofBytes nonce)
      timestamp = some m) :
    N.registerAgent otherwise ident agentID challenge turns timestamp = .ok (some
      (registrationBody agentID ident.raw (.str challengeID) (ofBytes nonce) timestamp
        (ident.sign m))) := by
  have hdecoded : N.buffer N.base64url (some (.str (b64uEncode powPrefix))) = some powPrefix := by
    rw [b64uEncode_eq]
    exact congrArg some (N.base64url_b64 powPrefix)
  have hsolved : N.solve otherwise powPrefix (some (.num (.integer bits))) turns =
      some (ofBytes nonce) := by
    change (solvePow N.sha256 powPrefix bits turns).map ofBytes = _
    rw [hsolve]
    rfl
  simp only [Node.registerAgent, bind_eq_ok, orThrow_eq_ok, hpre, hbits, hid, hdecoded]
  refine ⟨powPrefix, rfl, ?_⟩
  simp only [hsolved, bind_eq_ok, orThrow_eq_ok, pure_eq_ok, hcanonical]
  exact ⟨m, rfl, _, rfl, rfl⟩

/-- The Node client's registration, against a registry in any state that it can
be in. The script finds a nonce for the challenge it is given, if there is one
below 2^53. Whoever else registers in between, and as long as nobody has spent
the challenge, its submission within the challenge's ten minutes is let through;
and when it arrives with a timestamp the service takes, the service answers that
it is registered and has the agent's key under its id from then on, unless the
record there is that of another key with the same id. -/
theorem node_agent_registers {N : Node} {ident : NodeIdentity} {env : PowEnv}
    {raw powPrefix : Bytes} (otherwise : JsValue → Bytes → Nat → Option JsString)
    (hworks : ident.Works N C) (hs : (registering C number).Reachable FreshIDs s)
    (hraw : raw.length = 16) (hpre : powPrefix.length = 16)
    (hfresh : newChallengeID raw ∉ s.created)
    (hsolvable : ∃ i ≤ 2 ^ 53, verifyPow C powPrefix (ChallengeDO.difficultyBits number env)
      (ofBytes (Decimal.text i)) = true)
    (hts : SafeNat timestamp) (asked : Int) :
    ∃ challenge s₁ turns body,
      (ChallengeDO.create (ChallengeDO.difficultyBits number env) (newChallengeID raw) powPrefix
        asked).1 = .json challenge 201 ∧
      s.step C number (.create env raw powPrefix asked) = some s₁ ∧
      N.registerAgent otherwise ident (N.idOf "a" ident.raw) challenge turns timestamp =
        .ok (some body) ∧
      ∀ posted, posted < asked + ChallengeDO.ttlSeconds →
      ∀ s₂, (registering C number).Run (Meantime C (newChallengeID raw) posted) s₁ s₂ →
      ∀ req reparsed, Posts body req → restringifiesMembers body reparsed = true →
      ∃ s₃, s₂.step C number (.submit true req posted reparsed) = some s₃ ∧
        s₃.inFlight = ⟨N.idOf "a" ident.raw, newChallengeID raw, reparsed⟩ :: s₂.inFlight ∧
      ∀ s₄ i arrived, (registering C number).Run FreshIDs s₃ s₄ →
        s₄.inFlight[i]? = some ⟨N.idOf "a" ident.raw, newChallengeID raw, reparsed⟩ →
        withinSkew arrived timestamp skewRegistration = true →
      ∃ s₅, s₄.step C number (.register i arrived) = some s₅ ∧
        (((AgentDO.register C arrived reparsed (s₄.agents (N.idOf "a" ident.raw))).1.ok = true ∧
          ∀ t, (registering C number).Run FreshIDs s₅ t →
            ∃ r, t.agents (N.idOf "a" ident.raw) = some r ∧ r.agentID = N.idOf "a" ident.raw ∧
              r.publicKey = b64uEncode ident.raw) ∨
        ∃ r key, s₄.agents (N.idOf "a" ident.raw) = some r ∧ b64uDecode r.publicKey = some key ∧
          key ≠ ident.raw ∧ agentID C key = .ok (N.idOf "a" ident.raw)) := by
  obtain ⟨a, haid, haascii, halen, hare, hown⟩ := agent_id hworks
  obtain ⟨c, hcid, hcascii, hclen, hcre⟩ := challenge_id hraw
  obtain ⟨bits, hbits, hle⟩ := ProofOfWork.difficultyBits_range number env
  rw [hbits] at hsolvable ⊢
  obtain ⟨turns, i, hsolve, haccepted⟩ := exists_nonce hworks.digest hle hsolvable
  have hnlen := length_of_accepted haccepted
  have hshort : a.length < 2 ^ 32 ∧ ident.raw.length < 2 ^ 32 ∧ c.length < 2 ^ 32 ∧
      (Decimal.text i).length < 2 ^ 32 := by
    rw [maxPowNonceBytes] at hnlen
    exact ⟨by omega, by rw [hworks.raw]; decide, by omega, by omega⟩
  obtain ⟨m, hscript, hservice⟩ := agentCanonical_eq haascii hcascii (ascii_text i) hts hshort
  rw [haid, hcid]
  have hcreate : s.step C number (.create env raw powPrefix asked) =
      some (s.create bits (ofBytes c) powPrefix asked) := by
    rw [Registry.step, hbits, hcid]
  refine ⟨_, _, turns, _, rfl, hcreate, registerAgent_eq_ok rfl rfl rfl (hworks.sha256 ▸ hsolve)
    hscript, ?_⟩
  intro posted hintime s₂ hmeantime req reparsed hreq hsent
  have hthere : (s.create bits (ofBytes c) powPrefix asked).challenges (ofBytes c) =
      (ChallengeDO.create bits (ofBytes c) powPrefix asked).2 := Function.update_self ..
  obtain ⟨hspared, -⟩ := spared_run List.mem_cons_self hthere hintime hmeantime
  have hne : powPrefix ≠ [] := by
    rintro rfl
    cases hpre
  have hread := readSubmission_body hreq hare hcre
  let sub : Submission := ⟨ofBytes a, ofBytes c, ofBytes (Decimal.text i),
    registrationBody (ofBytes a) ident.raw (.str (ofBytes c)) (ofBytes (Decimal.text i)) timestamp
      (ident.sign m)⟩
  have hflight := consume_inFlight (show s₂.challenges sub.challengeID = some _ from hspared)
    hintime rfl (b64uDecode_b64uEncode hne) haccepted reparsed
  have hsubmit : s₂.step C number (.submit true req posted reparsed) =
      some (s₂.consume C sub posted reparsed) := by
    simp only [Registry.step, hread, hsent, if_true, sub]
  refine ⟨_, hsubmit, hflight, fun s₄ k arrived hlater hplace hskew => ?_⟩
  -- The records in the state where it arrives are their agents' own.
  have hreach : (registering C number).Reachable FreshIDs s₄ := by
    have hasked := hs.step (show FreshIDs s (.create env raw powPrefix asked) from hfresh) hcreate
    have hposted := (hasked.run (hmeantime.mono fun _ _ h => h.1)).step
      (show FreshIDs s₂ (.submit true req posted reparsed) from trivial) hsubmit
    exact hposted.run hlater
  have hcheck := checkRegistration_body hworks hown hare ⟨by omega, by omega, hnlen⟩ hts hskew
    hservice hsent
  have hregister : s₄.step C number (.register k arrived) =
      some (s₄.register C k ⟨ofBytes a, ofBytes c, reparsed⟩ arrived) := by
    rw [Registry.step, hplace]
    rfl
  refine ⟨_, hregister, ?_⟩
  rcases register_accepted (f := ⟨ofBytes a, ofBytes c, reparsed⟩)
    (invariant_of_reachable hreach).2 k hcheck rfl with ⟨hok, r, hr, hname, hkey⟩ | hother
  · refine .inl ⟨hok, fun t hrun => ?_⟩
    obtain ⟨r', hr', hsame⟩ := kept_run hrun hr
    exact ⟨r', hr', hsame.1.trans hname, hsame.2.trans hkey⟩
  · exact .inr hother

end

namespace Sample

def otherKey : JsString := js "7UkoxijRwsbq6QM4kFmVYSlZJzpcY_k2NsFGFKyHN9E"
def otherName : JsString := js "a_wyxim75c6m5p4ywv22ywilqwehkugmdy"

def otherPrefix : Bytes := List.replicate 16 6

/-- SHA-256 of the two agents' keys, of the other agent's prefix with its nonce,
and of the prefix with the first two nonces. -/
def agentSha256 (b : Bytes) : Bytes :=
  if b = Service.Sample.decoded "gTl3Dqh9F19Wo1Rmw0x-zMuNipG07jeiXfYPW4_Js5Q" then
    Service.Sample.decoded "ajgD1fBZkCocba-8m6RykhL3yqwIY0zDrnaydSnwOCc"
  else if b = Service.Sample.decoded "7UkoxijRwsbq6QM4kFmVYSlZJzpcY_k2NsFGFKyHN9E" then
    Service.Sample.decoded "ti6Gf6LzOv5i1daxZC4WIdVDMHhGsqV7iX5xCRm3Zwk"
  else if b = otherPrefix ++ lit "0" then
    Service.Sample.decoded "CpOO0nmz4AkrSCUK4cktt00nvaeR7Y3sXZ6332Byfq8"
  else ProofOfWork.Sample.sha256 b

def agentSubtle : Subtle := ⟨agentSha256, fun _ _ _ => true⟩

def agentNode : Node := { node with sha256 := agentSha256 }

/-- Of the registration for the challenge below, with the nonce 1. -/
def agentSignature : Bytes := Service.Sample.decoded
  "yJwhTZN9GEDxZP7KO9b_zCtNEOmXhXH9_as5XN3uXVKRzF4LiWMkovnMs5NZJzwXwRAp0Vk-QrfZp1K4-qLsDw"

def agentIdentity : NodeIdentity where
  raw := Service.Sample.decoded "gTl3Dqh9F19Wo1Rmw0x-zMuNipG07jeiXfYPW4_Js5Q"
  sign _ := agentSignature

def challengeRaw : Bytes := Service.Sample.decoded "AAECAwQFBgcICQoLDA0ODw"

theorem agentIdentity_works : agentIdentity.Works agentNode agentSubtle where
  sha256 := rfl
  digest b := by
    change (agentSha256 b).length = 32
    unfold agentSha256
    split
    · decide +kernel
    · split
      · decide +kernel
      · split
        · decide +kernel
        · exact ProofOfWork.Sample.length_sha256 b
  raw := by decide +kernel
  signature _ := by
    have hlen : agentSignature.length = 64 := by decide +kernel
    simp only [agentIdentity, agentSubtle, hlen, and_self]

def post (body : Record) : Request :=
  ⟨.post, [js "agents"], none, 500, some (.obj body), ⟨false, none, none, none⟩⟩

def otherBody (challengeID : String) (timestamp : Int) : Record :=
  registrationBody otherName (Service.Sample.decoded "7UkoxijRwsbq6QM4kFmVYSlZJzpcY_k2NsFGFKyHN9E")
    (.str (js challengeID)) (js "0") timestamp (Service.Sample.decoded
      "CAoTRvAU4feZWhAly6rrCW52lOYujIE3bhAM8LKo4Dpwhkd8qW7v60IXFEA59SblVVxhyThkicNblAMKn9v-Bg")

/-- The other agent tries the first challenge in vain, and registers with one of
its own. -/
def meantime : List RegistryOp :=
  [.create ProofOfWork.Sample.env (Service.Sample.decoded "EBESExQVFhcYGRobHB0eHw") otherPrefix
      1700000001,
    .submit true (post (otherBody "c_aaaqeayeaudaocajbifqydiob4" 1700000002)) 1700000002
      (otherBody "c_aaaqeayeaudaocajbifqydiob4" 1700000002),
    .submit true (post (otherBody "c_caireeyuculbogazdinryhi6d4" 1700000003)) 1700000003
      (otherBody "c_caireeyuculbogazdinryhi6d4" 1700000003),
    .register 0 1700000004]

end Sample

/-- The first challenge of a registry. Before it is answered another agent
tries it with a nonce that does not solve it, and registers. -/
theorem node_agent_registers_sample : ∃ t r r',
    (registering Sample.agentSubtle ProofOfWork.Sample.number).Reachable FreshIDs t ∧
    t.agents Service.Sample.agentName = some r ∧ r.publicKey = Service.Sample.agentKey ∧
    t.agents Sample.otherName = some r' ∧ r'.publicKey = Sample.otherKey := by
  have hsolvable : verifyPow Sample.agentSubtle ProofOfWork.Sample.powPrefix
      (ChallengeDO.difficultyBits ProofOfWork.Sample.number ProofOfWork.Sample.env)
      (ofBytes (Decimal.text 1)) = true := by decide +kernel
  have hname : Sample.agentNode.idOf "a" Sample.agentIdentity.raw = Service.Sample.agentName := by
    decide +kernel
  have hkey : b64uEncode Sample.agentIdentity.raw = Service.Sample.agentKey := by decide +kernel
  have hinit : (registering Sample.agentSubtle ProofOfWork.Sample.number).Reachable FreshIDs
      Registry.empty := .of_init rfl
  obtain ⟨challenge, s₁, turns, body, -, hcreate, -, hposts⟩ :=
    node_agent_registers (fun _ _ _ => none) Sample.agentIdentity_works hinit
      (show Sample.challengeRaw.length = 16 from by decide +kernel)
      (show ProofOfWork.Sample.powPrefix.length = 16 from by decide +kernel)
      (by simp [Registry.empty]) ⟨1, Nat.one_le_two_pow, hsolvable⟩
      (show SafeNat 1700000000 from by decide) 1700000000
  have hexec : ((Registry.empty.step Sample.agentSubtle ProofOfWork.Sample.number (.create
      ProofOfWork.Sample.env Sample.challengeRaw ProofOfWork.Sample.powPrefix 1700000000)).bind
      ((registering Sample.agentSubtle ProofOfWork.Sample.number).exec (Meantime Sample.agentSubtle
        (newChallengeID Sample.challengeRaw) 1700000010) · Sample.meantime)).any (fun s =>
          (s.agents Service.Sample.agentName).isNone &&
            (s.agents Sample.otherName).map (·.publicKey) == some Sample.otherKey) = true := by
    decide +kernel
  rw [hcreate, Option.bind_some] at hexec
  obtain ⟨s₂, hs₂, hfound⟩ := Option.any_eq_true .. |>.mp hexec
  simp only [Bool.and_eq_true, Option.isNone_iff_eq_none, beq_iff_eq] at hfound
  obtain ⟨hnone, hother⟩ := hfound
  obtain ⟨r', hr', hkey'⟩ := Option.map_eq_some_iff.mp hother
  have hmeantime := Machine.Run.of_exec hs₂
  obtain ⟨s₃, hsubmit, hflight, harrives⟩ := hposts 1700000010 (by decide) s₂ hmeantime
    (Sample.post body) body ⟨rfl, (by decide : 500 ≤ maxRequestBytes), rfl⟩
    (restringifiesMembers_refl body)
  obtain ⟨s₅, hregister, hdone⟩ := harrives s₃ 0 1700000012 (.refl s₃) (by rw [hflight]; rfl)
    (by decide)
  have hagents : s₃.agents Service.Sample.agentName = none := by
    rw [agents_submit hsubmit, hnone]
  have hasked := hinit.step
    (show FreshIDs _ (.create _ _ _ _) from by simp [FreshIDs, Registry.empty]) hcreate
  have hlater : (registering Sample.agentSubtle ProofOfWork.Sample.number).Run FreshIDs s₂ s₅ :=
    (Machine.Run.of_step (show FreshIDs _ (.submit _ _ _ _) from trivial) hsubmit).step
      (show FreshIDs _ (.register _ _) from trivial) hregister
  have hreach := (hasked.run (hmeantime.mono fun _ _ h => h.1)).run hlater
  obtain ⟨r'', hr'', -, hsame⟩ := kept_run hlater hr'
  rw [hname] at hdone
  rcases hdone with ⟨-, hkept⟩ | ⟨r, key, hr, -⟩
  · obtain ⟨r, hr, -, hpub⟩ := hkept s₅ (.refl s₅)
    exact ⟨s₅, r, r'', hreach, hr, hpub.trans hkey, hr'', hsame.trans hkey'⟩
  · rw [hagents] at hr
    cases hr

end Grantd.Install
