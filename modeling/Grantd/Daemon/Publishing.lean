import Grantd.Service.Grants
import Grantd.Signer.Signed

/-!
# Publishing grants

`register`, `publishLoop`, `publish` and `put` of
go/daemon/rendezvous/rendezvous.go, between the signer and the object of the
host. Sessions end and start again, so that several loops may be under way at
once; requests and answers are lost, arrive late or twice; the object serves
everyone. A step is one call of a loop at the signer or at the service, or
anything that goes on beside the loops. What a loop sends and no answer comes
back from needs no step of its own: to the object it is a request like any
other. The text of a request is kept as the value `JSON.parse` reads in it.
-/

namespace Grantd.Daemon.Publishing

open Base Service Install
open JsonText (Tree Branches)
open Signer (GrantPublishRequest HostRegisterRequest Random)

-- ---------------------------------------------------------------------------
-- Requests to the service
-- ---------------------------------------------------------------------------

def registrationTree (m : Protocol.HostRegistration) : Tree :=
  .object (lit "version") (.scalar (.int m.version.toNat)) (.ofFlat (flat m).tail)

def registerTree (req : HostRegisterRequest) : Tree :=
  .object (lit "registration") (registrationTree req.registration) (.ofFlat [
    (lit "signature", .str (Protocol.b64 req.signature))])

def putRequest (seg : List JsString) (body : Tree) : Service.Request where
  method := .put
  seg
  contentLength := some body.text.length
  size := body.text.length
  json := some (jsonParse (body.doc ofBytes))
  headers := ⟨false, none, none, none⟩

def registerRequest (req : HostRegisterRequest) : Service.Request :=
  putRequest [js "hosts", ofBytes req.registration.hostID] (registerTree req)

def publishRequest (hostID : GoString) (pub : GrantPublishRequest) : Service.Request :=
  putRequest [js "hosts", ofBytes hostID, js "grants", ofBytes pub.grant.grantID] (publishTree pub)

/-- What `put` makes of the status: one of 500 or more is an error. -/
def put (status : Nat) : Except Nat Nat := if 500 ≤ status then .error status else .ok status

-- ---------------------------------------------------------------------------
-- Sessions
-- ---------------------------------------------------------------------------

/-- How far one session has come. `waiting` is the loop at its ticker and
`publishing` the loop over the publications that are left. -/
inductive Loop
  | off
  | registering (req : HostRegisterRequest)
  | waiting (hostID : GoString)
  | asking (hostID : GoString)
  | publishing (hostID : GoString) (pub : GrantPublishRequest) (rest : List GrantPublishRequest)

def Loop.pending : Loop → List GrantPublishRequest
  | .publishing _ pub rest => pub :: rest
  | _ => []

def Loop.hostID : Loop → Option GoString
  | .off => none
  | .registering req => some req.registration.hostID
  | .waiting hostID | .asking hostID | .publishing hostID _ _ => some hostID

def Loop.Started : Loop → Prop
  | .off | .registering _ => False
  | _ => True

/-- The head of `for _, pub := range pending`. -/
def Loop.over (hostID : GoString) : List GrantPublishRequest → Loop
  | [] => .waiting hostID
  | pub :: rest => .publishing hostID pub rest

/-- `register` fails on an error and on a status of 400 or more. -/
def afterRegister (req : HostRegisterRequest) (status : Nat) : Loop :=
  match put status with
  | .error _ => .off
  | .ok status => if 400 ≤ status then .off else .waiting req.registration.hostID

/-- The body of the inner loop, with what it posts to the signer. An error
ends the pass and a refusal skips the grant. -/
def afterPublish (hostID : GoString) (pub : GrantPublishRequest) (rest : List GrantPublishRequest)
    (status : Nat) : Loop × List GrantPublishRequest :=
  match put status with
  | .error _ => (.waiting hostID, [])
  | .ok status => (.over hostID rest, if 400 ≤ status then [] else [pub])

/-- `accepted` are the publications that were answered with success, newest
first: a `MarkPublished` was sent for each. -/
structure World where
  signer : Signer.Daemon
  object : Life
  loops : Nat → Loop
  accepted : List GrantPublishRequest

inductive Event
  /-- Anything else at the signer. -/
  | signer (req : Signer.Request)
  /-- Anything at the object, by anyone. -/
  | object (op : Operation)
  | register (i : Nat) (now : Int64) (nonce : Bytes)
  | registered (i : Nat) (env : Reading)
  | tick (i : Nat)
  | pending (i : Nat) (now : Int64)
  | publish (i : Nat) (env : Reading)
  /-- The service answers without asking the object. -/
  | refused (i : Nat) (status : Nat)
  /-- A call of the loop fails. -/
  | failed (i : Nat)
  /-- The session ends. -/
  | stopped (i : Nat)
  /-- A `MarkPublished` arrives. -/
  | mark (pub : GrantPublishRequest) (now : Int64)

theorem afterRegister_cases (req : HostRegisterRequest) (status : Nat) :
    afterRegister req status = .off ∨
      afterRegister req status = .waiting req.registration.hostID ∧ status < 400 := by
  unfold afterRegister put
  split
  · exact .inl rfl
  · rename_i status' hput
    split at hput
    · cases hput
    · cases hput
      split
      · exact .inl rfl
      · exact .inr ⟨rfl, by omega⟩

/-- Of the grants in the pass only the answered one is posted, and only after
success. -/
theorem afterPublish_cases (hostID : GoString) (pub : GrantPublishRequest)
    (rest : List GrantPublishRequest) (status : Nat) :
    ((afterPublish hostID pub rest status).1 = .waiting hostID ∨
      (afterPublish hostID pub rest status).1 = .over hostID rest) ∧
    ((afterPublish hostID pub rest status).2 = [] ∨
      (afterPublish hostID pub rest status).2 = [pub] ∧ status < 400) := by
  unfold afterPublish put
  split
  · exact ⟨.inl rfl, .inl rfl⟩
  · rename_i status' hput
    refine ⟨.inr rfl, ?_⟩
    split at hput
    · cases hput
    · cases hput
      split
      · exact .inl rfl
      · exact .inr ⟨rfl, by omega⟩

theorem Loop.hostID_over (hostID : GoString) (pending : List GrantPublishRequest) :
    (Loop.over hostID pending).hostID = some hostID := by
  cases pending <;> rfl

theorem Loop.pending_over (hostID : GoString) (pending : List GrantPublishRequest) :
    (Loop.over hostID pending).pending = pending := by
  cases pending <;> rfl

variable (C : Subtle) (S : Signer)

/-- `PendingPublications` on the host row that was read, and the loop with its
answer. -/
def afterPending (hostID : GoString) (host : Option Signer.Host) (rows : List Signer.GrantRow) :
    Loop :=
  match host with
  | none => .waiting hostID
  | some h =>
    match S.signPublications h rows with
    | .error _ => .waiting hostID
    | .ok pending => .over hostID pending

def arrive (env : Reading) (req : Service.Request) (d : HostDO) : Response × HostDO :=
  match hostRoute req with
  | .error r => (r, d)
  | .ok (_, r) => fetch C env r d

def step (s : World) : Event → Option World
  | .signer req => do
    let signer ← (Signer.daemon S).step s.signer req
    pure { s with signer }
  | .object op =>
    some { s with object := ⟨s.object.object.perform C op, op.now.getD s.object.clock⟩ }
  | .register i now nonce =>
    match s.loops i, S.hostRegistration s.signer.state.store.host now nonce with
    | .off, .ok req => do
      let signer ← (Signer.daemon S).step s.signer (.registration now nonce)
      pure { s with signer, loops := Signer.set s.loops i (.registering req) }
    | _, _ => none
  | .registered i env =>
    match s.loops i with
    | .registering req =>
      let (r, d) := arrive C env (registerRequest req) s.object.object
      some { s with
        object := ⟨d, env.now⟩
        loops := Signer.set s.loops i (afterRegister req r.status) }
    | _ => none
  | .tick i =>
    match s.loops i with
    | .waiting hostID => do
      let signer ← (Signer.daemon S).step s.signer (.publications i)
      pure { s with signer, loops := Signer.set s.loops i (.asking hostID) }
    | _ => none
  | .pending i now =>
    match s.loops i with
    | .asking hostID => do
      let signer ← (Signer.daemon S).step s.signer (.signPublications i now)
      let rows := s.signer.state.store.pendingPublications now
      pure { s with
        signer
        loops := Signer.set s.loops i (afterPending S hostID (s.signer.reads i) rows) }
    | _ => none
  | .publish i env =>
    match s.loops i with
    | .publishing hostID pub rest =>
      let (r, d) := arrive C env (publishRequest hostID pub) s.object.object
      let (loop, posted) := afterPublish hostID pub rest r.status
      some { s with
        object := ⟨d, env.now⟩
        loops := Signer.set s.loops i loop
        accepted := posted ++ s.accepted }
    | _ => none
  | .refused i status =>
    match s.loops i with
    | .publishing hostID pub rest =>
      if 400 ≤ status then
        some { s with loops := Signer.set s.loops i (afterPublish hostID pub rest status).1 }
      else none
    | _ => none
  | .failed i =>
    match s.loops i with
    | .asking hostID | .publishing hostID _ _ =>
      some { s with loops := Signer.set s.loops i (.waiting hostID) }
    | _ => none
  | .stopped i => some { s with loops := Signer.set s.loops i .off }
  | .mark pub now =>
    if pub ∈ s.accepted then do
      let signer ← (Signer.daemon S).step s.signer (.system (.markPublished now pub.grant.grantID))
      pure { s with signer }
    else none

def publishing : Machine World Event where
  Init s := (Signer.daemon S).Init s.signer ∧ s.object.object = .empty ∧ (∀ i, s.loops i = .off) ∧
    s.accepted = []
  step := step C S

-- ---------------------------------------------------------------------------
-- What the loops rely on
-- ---------------------------------------------------------------------------

/-- Not a call of a loop. -/
def Elsewhere : Signer.Request → Bool
  | .system (.markPublished ..) | .publications _ | .signPublications .. => false
  | _ => true

/-- A publication that verifies under the key of the host is one that the key
has signed. -/
def genuine (signed : List Bytes) : Operation → Bool
  | .request _ (.publishGrant _ body) =>
    match parseGrant (body.get (js "grant")), parseSignature body with
    | .ok grant, .ok signature =>
      match canonicalGrant grant with
      | .ok message => !verifyEd25519 C S.identity message signature || signed.contains message
      | .error _ => true
    | _, _ => true
  | _ => true

def World.signed (s : World) : List Bytes := s.signer.signed.map Prod.fst

/-- Grant ids are drawn afresh, the clock of the object does not go back, and
nobody else has the key. -/
def Trusted (s : World) : Event → Prop
  | .signer req => Elsewhere req = true ∧ Random s.signer req
  | .object op => Onward s.object op ∧ genuine C S s.signed op = true
  | .register _ _ nonce => nonce.length = Protocol.nonceLen
  | .registered _ env | .publish _ env => s.object.clock ≤ env.now
  | _ => True

instance (s : World) (e : Event) : Decidable (Trusted C S s e) :=
  match e with
  | .signer _ | .object _ => inferInstanceAs (Decidable (_ ∧ _))
  | .register .. => inferInstanceAs (Decidable (_ = _))
  | .registered .. | .publish .. => inferInstanceAs (Decidable (_ ≤ _))
  | .tick _ | .pending .. | .refused .. | .failed _ | .stopped _ | .mark .. =>
    inferInstanceAs (Decidable True)

variable {C S}

theorem World.hasSigned_iff {s : World} {g : Protocol.Grant} :
    s.signer.HasSigned g ↔ ∃ e ∈ s.signed, g.canonical = .ok e := by
  simp only [Signer.Daemon.HasSigned, World.signed, List.mem_map, Prod.exists, exists_and_right,
    exists_eq_right]
  exact ⟨fun ⟨e, store, hg, h⟩ => ⟨e, ⟨store, h⟩, hg⟩, fun ⟨e, ⟨store, h⟩, hg⟩ => ⟨e, store, hg, h⟩⟩

theorem genuine_signed {signed : List Bytes} {id : JsString} {body : Record}
    (h : genuine C S signed (.request env (.publishGrant id body)) = true)
    (hgrant : parseGrant (body.get (js "grant")) = .ok grant)
    (hsig : parseSignature body = .ok signature) (hmsg : canonicalGrant grant = .ok message)
    (hverify : verifyEd25519 C S.identity message signature = true) : message ∈ signed := by
  simp only [genuine, hgrant, hsig, hmsg, hverify, Bool.not_true, Bool.false_or] at h
  exact List.contains_iff_mem.mp h

-- ---------------------------------------------------------------------------
-- The requests of the loops
-- ---------------------------------------------------------------------------

theorem publishRequest_route {hostID : GoString}
    (h : hostRoute (publishRequest hostID pub) = .ok (name, r)) :
    r = .publishGrant (ofBytes pub.grant.grantID) (publishBody pub) := by
  simp only [hostRoute, publishRequest, putRequest, readJson, jsonParse_publishTree, bind_eq_ok,
    ensure_eq_ok, pure_eq_ok] at h
  obtain ⟨_, -, _, -, _, -, _, -, body, ⟨_, -, _, -, hbody⟩, hpair⟩ := h
  cases hbody
  cases hpair
  rfl

/-- What `JSON.parse` reads in the text of a registration. -/
def registerBody (req : HostRegisterRequest) : Record := [
  (js "signature", .str (ofBytes (Protocol.b64 req.signature))),
  (js "registration", .obj (json (flat req.registration)).reverse)]

theorem jsonParse_registerTree (req : HostRegisterRequest) :
    jsonParse ((registerTree req).doc ofBytes) = .obj (registerBody req) := by
  simp only [registerTree, registrationTree, flat, List.tail_cons, Branches.ofFlat, Tree.doc,
    Branches.members, JsonText.Scalar.doc, jsonParse, jsonParseMembers, readNumber_doc]
  rfl

theorem registerRequest_route (h : hostRoute (registerRequest req) = .ok (name, r)) :
    r = .register (registerBody req) := by
  simp only [hostRoute, registerRequest, putRequest, readJson, jsonParse_registerTree, bind_eq_ok,
    ensure_eq_ok, pure_eq_ok] at h
  obtain ⟨_, -, _, -, body, ⟨_, -, _, -, hbody⟩, hpair⟩ := h
  cases hbody
  cases hpair
  rfl

theorem parseHostRegistration_key (hkey : req.registration.identityPublicKey ≠ [])
    (h : parseHostRegistration ((registerBody req).get (js "registration")) = .ok reg) :
    reg.identityPublicKey = req.registration.identityPublicKey := by
  simp only [parseHostRegistration, bind_eq_ok, pure_eq_ok, bytes_eq_ok] at h
  obtain ⟨o, ho, _, -, _, -, key, ⟨t, ht, hdecode, -⟩, _, -, _, -, _, -, _, -, _, -, _, -, _, -,
    _, -, _, -, _, -, _, -, _, -, _, -, rfl⟩ := h
  cases ho
  have hmember : t = b64uEncode req.registration.identityPublicKey := by
    rw [b64uEncode_eq]
    exact Json.str.inj (Option.some.inj ht.symm)
  rw [hmember, b64uDecode_b64uEncode hkey] at hdecode
  exact (Option.some.inj hdecode).symm

theorem parseGrant_publishBody
    (h : parseGrant ((publishBody pub).get (js "grant")) = .ok grant) :
    grant = servedGrant pub.grant := by
  simp only [parseGrant, bind_eq_ok, pure_eq_ok, int_eq_ok, str_eq_ok] at h
  obtain ⟨o, ho, _, ⟨hversion, -⟩, _, ⟨hhost, -⟩, _, ⟨hgrant, -⟩, _, ⟨huser, -⟩, _, ⟨hcreated, -⟩,
    _, ⟨hexpires, -⟩, _, -, _, -, _, -, _, -, _, -, _, -, rfl⟩ := h
  cases ho
  cases hversion
  cases hhost
  cases hgrant
  cases huser
  cases hcreated
  cases hexpires
  rfl

theorem go_servedGrant {g : Protocol.Grant} (hs : Signer.Signable S (.grant g))
    (hm : (servedGrant g).Valid) : (servedGrant g).go = g := by
  obtain ⟨hhost, hgrant, huser⟩ := signable_fields hs
  have htext {s : Bytes} (h : s.all isFieldChar = true) : textEncode (ofBytes s) = s :=
    textEncode_ofBytes (fieldChar_ascii h)
  have hversion : UInt64.ofNat (g.version.toNat : Int).toNat = g.version := by
    rw [Int.toNat_natCast, UInt64.ofNat_toNat]
  simp only [servedGrant, Grant.go, htext hhost, htext hgrant, htext huser, hversion,
    ofNat_toInt hm.createdAt.2, ofNat_toInt hm.expiresAt.2]

theorem genuine_publishBody {s : World} {id : JsString}
    (hs : (Signer.daemon S).Reachable Signer.Drawn s.signer) (hg : s.signer.HasSigned pub.grant) :
    genuine C S s.signed (.request env (.publishGrant id (publishBody pub))) = true := by
  simp only [genuine]
  split
  · rename_i grant signature hgrant hsig
    split
    · rename_i message hmsg
      have hvalid := parseGrant_valid hgrant
      cases parseGrant_publishBody hgrant
      have hgo := Grant.go_canonical hvalid hmsg
      rw [go_servedGrant (hg.signable hs) hvalid] at hgo
      obtain ⟨e, he, hcanon⟩ := World.hasSigned_iff.mp hg
      cases hcanon.symm.trans hgo
      rw [List.contains_iff_mem.mpr he, Bool.or_true]
    · rfl
  · rfl

/-- A request reaches the object, or it is refused and leaves the object as one
that only reads it. -/
theorem arrive_eq (env : Reading) (req : Service.Request) (d : HostDO) :
    (400 ≤ (arrive C env req d).1.status ∧
      (arrive C env req d).2 = d.perform C (.request env .publicRecord)) ∨
    ∃ name r, hostRoute req = .ok (name, r) ∧ (arrive C env req d).1 = (fetch C env r d).1 ∧
      (arrive C env req d).2 = d.perform C (.request env r) := by
  unfold arrive
  cases hroute : hostRoute req with
  | error r => exact .inl ⟨hostRoute_refuses req r hroute, rfl⟩
  | ok p => exact .inr ⟨p.1, p.2, rfl, rfl, rfl⟩

-- ---------------------------------------------------------------------------
-- The object
-- ---------------------------------------------------------------------------

variable (S) in
/-- The object verifies publications under the key of the host. -/
def Owned (d : HostDO) : Prop :=
  ∃ id key, d.owner = some (id, key) ∧ b64uDecode key = some S.identity

variable (S) in
def Unclaimed (d : HostDO) : Prop :=
  ∀ id key, d.owner = some (id, key) → b64uDecode key = some S.identity

theorem Owned.unclaimed (h : Owned S d) : Unclaimed S d := by
  intro id key howner
  obtain ⟨id', key', howner', hkey⟩ := h
  cases howner'.symm.trans howner
  exact hkey

theorem Unclaimed.of_perform (h : Unclaimed S (d.perform C op)) : Unclaimed S d :=
  fun id key howner => h id key (perform_owner howner op)

theorem Owned.perform (h : Owned S d) (op : Operation) : Owned S (d.perform C op) := by
  obtain ⟨id, key, howner, hkey⟩ := h
  exact ⟨id, key, perform_owner howner op, hkey⟩

def RowOf (g : Protocol.Grant) (row : Service.GrantRow) : Prop :=
  ∃ signature now, row = HostDO.grantRow (servedGrant g) signature now

def HoldsGrant (d : HostDO) (g : Protocol.Grant) : Prop :=
  ∃ row, d.grants.get? (ofBytes g.grantID) = some row ∧ RowOf g row

theorem put_signed {s : World} {id : JsString}
    (hs : (Signer.daemon S).Reachable Signer.Drawn s.signer) (howner : Unclaimed S d)
    (hhost : d.host = some host)
    (hgenuine : genuine C S s.signed (.request env (.publishGrant id body)) = true)
    (hcheck : HostDO.checkPublish C env.now id body host = .ok (grant, signature)) :
    ∃ g, s.signer.HasSigned g ∧ id = ofBytes g.grantID ∧ grant = servedGrant g := by
  obtain ⟨hparse, hsig, hid, -, -, -, identity, message, hdecode, hmsg, hverify⟩ :=
    (HostDO.checkPublish_eq_ok C).mp hcheck
  have hkey : b64uDecode host.identityPublicKey = some S.identity :=
    howner host.hostID host.identityPublicKey (by rw [HostDO.owner, hhost, Option.map_some])
  cases hdecode.symm.trans hkey
  have hvalid := parseGrant_valid hparse
  have hmem := genuine_signed hgenuine hparse hsig hmsg hverify
  have hgo := Grant.go_canonical hvalid hmsg
  have hsigned : s.signer.HasSigned grant.go := World.hasSigned_iff.mpr ⟨message, hmem, hgo⟩
  have hserved := served_of_signed hvalid hmsg hgo (hsigned.signable hs)
  refine ⟨grant.go, hsigned, ?_, hserved⟩
  rw [← hid]
  exact congrArg Grant.grantID hserved

def Faithful (s : World) (d : HostDO) : Prop :=
  ∀ id row, d.grants.get? id = some row → ∃ g, s.signer.HasSigned g ∧ id = ofBytes g.grantID ∧
    RowOf g row

theorem Faithful.perform {s : World} (hs : (Signer.daemon S).Reachable Signer.Drawn s.signer)
    (howner : Unclaimed S d) (h : Faithful s d) (hgenuine : genuine C S s.signed op = true) :
    Faithful s (d.perform C op) := by
  intro id row hrow
  cases HostDO.fate C d op id with
  | same hsame => exact h id row (hsame.symm.trans hrow)
  | dropped now _ hnone _ => cases hnone.symm.trans hrow
  | put env body host grant signature hop hhost hcheck hput =>
    subst hop
    obtain ⟨g, hsigned, hid, rfl⟩ := put_signed hs howner hhost hgenuine hcheck
    cases hput.symm.trans hrow
    exact ⟨g, hsigned, hid, signature, env.now, rfl⟩

/-- `g` is there until a day after it has expired. -/
def Kept (o : Life) (g : Protocol.Grant) : Prop :=
  HoldsGrant o.object g ∨ g.expiresAt.toInt + HostDO.grantRetention < o.clock

theorem Kept.perform {s : World} {o : Life} (hs : (Signer.daemon S).Reachable Random s.signer)
    (howned : Owned S o.object) (hg : s.signer.HasSigned g) (h : Kept o g) (hon : Onward o op)
    (hgenuine : genuine C S s.signed op = true) :
    Kept ⟨o.object.perform C op, op.now.getD o.clock⟩ g := by
  have hclock : o.clock ≤ op.now.getD o.clock := by
    cases hnow : op.now with
    | none => exact Int.le_refl _
    | some now => exact hon now hnow
  rcases h with ⟨row, hrow, hof⟩ | hlate
  · cases HostDO.fate C o.object op (ofBytes g.grantID) with
    | same hsame => exact .inl ⟨row, hsame.trans hrow, hof⟩
    | dropped now hnow _ hold =>
      have hexpired := hold row hrow
      obtain ⟨signature, t, rfl⟩ := hof
      simp only [HostDO.grantRow, servedGrant] at hexpired
      refine .inr ?_
      simp only [hnow, Option.getD_some]
      omega
    | put env body host grant signature hop hhost hcheck hput =>
      subst hop
      obtain ⟨g', hsigned, hid, rfl⟩ :=
        put_signed (Signer.drawn_reachable hs) howned.unclaimed hhost hgenuine hcheck
      have hsame := (Signer.Steady.reachable hs).unique g' g hsigned hg (ofBytes_inj hid).symm
      subst hsame
      exact .inl ⟨_, hput, signature, env.now, rfl⟩
  · exact .inr (Int.lt_of_lt_of_le hlate hclock)

-- ---------------------------------------------------------------------------
-- The invariant
-- ---------------------------------------------------------------------------

variable (C S) in
structure Sound (s : World) : Prop where
  signer : (Signer.daemon S).Reachable Random s.signer
  object : (lifetime C).Reachable Onward s.object
  named : ∀ i id, (s.loops i).hostID = some id → Protocol.hostID S.crypto S.identity = .ok id
  registering : ∀ i req, s.loops i = .registering req →
    req.registration.identityPublicKey = S.identity ∧ S.identity ≠ []
  /-- Loops run once the object has accepted the key. -/
  started : ∀ i, (s.loops i).Started → Owned S s.object.object
  pending : ∀ i, ∀ pub ∈ (s.loops i).pending, s.signer.HasSigned pub.grant
  accepted : ∀ pub ∈ s.accepted,
    s.signer.HasSigned pub.grant ∧ Owned S s.object.object ∧ Kept s.object pub.grant
  rows : Unclaimed S s.object.object → Faithful s s.object.object
  marked : ∀ r ∈ s.signer.state.store.grants.rows, r.publishedAt ≠ none →
    ∃ pub ∈ s.accepted, pub.grant.grantID = r.id

namespace Sound

theorem init (h : (publishing C S).Init s) : Sound C S s := by
  obtain ⟨hsigner, hobject, hloops, haccepted⟩ := h
  refine ⟨.of_init hsigner, .of_init hobject, fun i id hi => ?_, fun i req hi => ?_,
    fun i hi => ?_, fun i pub hpub => ?_, fun pub hpub => ?_, fun _ id row hrow => ?_,
    fun r hr => ?_⟩
  · rw [hloops i] at hi
    cases hi
  · cases (hloops i).symm.trans hi
  · rw [hloops i] at hi
    cases hi
  · rw [hloops i] at hpub
    cases hpub
  · rw [haccepted] at hpub
    cases hpub
  · rw [hobject] at hrow
    cases hrow
  · have hstore := hsigner.1.1
    rw [hstore] at hr
    cases hr

theorem at_signer (h : Sound C S s) (hok : Random s.signer req)
    (hstep : (Signer.daemon S).step s.signer req = some t)
    (hmark : ∀ now id, req = .system (.markPublished now id) →
      ∃ pub ∈ s.accepted, pub.grant.grantID = id) : Sound C S { s with signer := t } := by
  have hreach := h.signer.step hok hstep
  obtain ⟨p, hnext, rfl⟩ := Option.map_eq_some_iff.mp hstep
  have hmono (g) (hg : s.signer.HasSigned g) : Signer.Daemon.HasSigned
      ⟨p.1, p.2, (S.signs s.signer req).map (·, p.1.store) ++ s.signer.signed⟩ g := by
    obtain ⟨e, store, hcanon, hmem⟩ := hg
    exact ⟨e, store, hcanon, List.mem_append_right _ hmem⟩
  refine ⟨hreach, h.object, h.named, h.registering, h.started,
    fun i pub hpub => hmono _ (h.pending i pub hpub), fun pub hpub => ?_,
    fun hown id row hrow => ?_, fun r hr hpublished => ?_⟩
  · obtain ⟨hsigned, howned, hkept⟩ := h.accepted pub hpub
    exact ⟨hmono _ hsigned, howned, hkept⟩
  · obtain ⟨g, hsigned, hof⟩ := h.rows hown id row hrow
    exact ⟨g, hmono g hsigned, hof⟩
  · rcases Signer.next_state hnext with hsame | ⟨a, rfl, ha⟩
    · exact h.marked r (hsame ▸ hr) hpublished
    · rcases Signer.step_published ha hr hpublished with ⟨r₀, hr₀, hid, hold⟩ | ⟨now, rfl⟩
      · obtain ⟨pub, hpub, hgrant⟩ := h.marked r₀ hr₀ hold
        exact ⟨pub, hpub, hgrant.trans hid⟩
      · exact hmark now r.id rfl

theorem at_object (h : Sound C S s) (hon : Onward s.object op)
    (hgenuine : genuine C S s.signed op = true) :
    Sound C S { s with object := ⟨s.object.object.perform C op, op.now.getD s.object.clock⟩ } := by
  have hdrawn := Signer.drawn_reachable h.signer
  refine ⟨h.signer, h.object.step hon rfl, h.named, h.registering,
    fun i hi => (h.started i hi).perform op, h.pending,
    fun pub hpub => ?_, fun hown => ?_, h.marked⟩
  · obtain ⟨hsigned, howned, hkept⟩ := h.accepted pub hpub
    exact ⟨hsigned, howned.perform op, hkept.perform h.signer howned hsigned hon hgenuine⟩
  · have hbefore : Unclaimed S s.object.object := .of_perform hown
    exact (h.rows hbefore).perform hdrawn hbefore hgenuine

theorem at_loop (h : Sound C S s) (i : Nat) {loop : Loop}
    (hname : ∀ id, loop.hostID = some id → Protocol.hostID S.crypto S.identity = .ok id)
    (hreg : ∀ req, loop = .registering req →
      req.registration.identityPublicKey = S.identity ∧ S.identity ≠ [])
    (hstarted : loop.Started → Owned S s.object.object)
    (hpending : ∀ pub ∈ loop.pending, s.signer.HasSigned pub.grant) :
    Sound C S { s with loops := Signer.set s.loops i loop } := by
  have hcases (j : Nat) : Signer.set s.loops i loop j = loop ∨
      Signer.set s.loops i loop j = s.loops j := by
    by_cases hji : j = i
    · exact .inl (hji ▸ Signer.set_same ..)
    · exact .inr (Signer.set_of_ne _ _ hji)
  refine ⟨h.signer, h.object, fun j => ?_, fun j => ?_, fun j => ?_, fun j => ?_, h.accepted,
    h.rows, h.marked⟩
  · rcases hcases j with hj | hj
    · exact fun id heq => hname id (hj ▸ heq)
    · exact fun id heq => h.named j id (hj ▸ heq)
  · rcases hcases j with hj | hj
    · exact fun req heq => hreg req (hj.symm.trans heq)
    · exact fun req heq => h.registering j req (hj.symm.trans heq)
  · rcases hcases j with hj | hj
    · exact fun hs => hstarted (hj ▸ hs)
    · exact fun hs => h.started j (hj ▸ hs)
  · rcases hcases j with hj | hj
    · exact fun pub hpub => hpending pub (hj ▸ hpub)
    · exact fun pub hpub => h.pending j pub (hj ▸ hpub)

theorem go_on {hostID : GoString} (h : Sound C S s) (i : Nat)
    (hname : Protocol.hostID S.crypto S.identity = .ok hostID) (pending : List GrantPublishRequest)
    (howned : Owned S s.object.object)
    (hpending : ∀ pub ∈ pending, s.signer.HasSigned pub.grant) :
    Sound C S { s with loops := Signer.set s.loops i (.over hostID pending) } := by
  refine h.at_loop i (fun id heq => ?_) (fun req heq => ?_) (fun _ => howned) ?_
  · rw [Loop.hostID_over] at heq
    cases heq
    exact hname
  · cases pending <;> cases heq
  · rw [Loop.pending_over]
    exact hpending

theorem stop (h : Sound C S s) (i : Nat) :
    Sound C S { s with loops := Signer.set s.loops i .off } :=
  h.at_loop i (by simp [Loop.hostID]) (by simp) (by simp [Loop.Started]) (by simp [Loop.pending])

theorem accept (h : Sound C S s) (hsigned : s.signer.HasSigned pub.grant)
    (howned : Owned S s.object.object) (hholds : HoldsGrant s.object.object pub.grant) :
    Sound C S { s with accepted := pub :: s.accepted } := by
  refine ⟨h.signer, h.object, h.named, h.registering, h.started, h.pending,
    fun pub' hpub => ?_, h.rows,
    fun r hr hpublished => ?_⟩
  · rcases List.mem_cons.mp hpub with rfl | hold
    · exact ⟨hsigned, howned, .inl hholds⟩
    · exact h.accepted pub' hold
  · obtain ⟨pub', hpub, hid⟩ := h.marked r hr hpublished
    exact ⟨pub', List.mem_cons_of_mem _ hpub, hid⟩

theorem call (h : Sound C S s) (hok : Random s.signer req)
    (hreq : ∀ now id, req ≠ .system (.markPublished now id))
    (hstep : (Signer.daemon S).step s.signer req = some t) : Sound C S { s with signer := t } :=
  h.at_signer hok hstep fun now id heq => absurd heq (hreq now id)

theorem register (h : Sound C S s) (hnonce : nonce.length = Protocol.nonceLen)
    (hreg : S.hostRegistration s.signer.state.store.host now nonce = .ok req)
    (hstep : (Signer.daemon S).step s.signer (.registration now nonce) = some t) :
    Sound C S { s with signer := t, loops := Signer.set s.loops i (.registering req) } := by
  have hok : Random s.signer (.registration now nonce) := ⟨hnonce, trivial⟩
  obtain ⟨host, msg, hhost, -, -, rfl⟩ := Signer.hostRegistration_eq_ok.mp hreg
  have hid := ((Signer.Clean.reachable (Signer.drawn_reachable h.signer)).host host hhost).hostID
  refine (h.call hok (by simp) hstep).at_loop i (fun id heq => ?_) (fun req' heq => ?_)
    (by simp [Loop.Started]) (by simp [Loop.pending])
  · cases heq
    exact hid
  · cases heq
    refine ⟨rfl, fun hnil => ?_⟩
    rw [hnil] at hid
    cases hid

theorem owned_registered {C : Subtle} {req : HostRegisterRequest} {d : HostDO}
    (hkey : req.registration.identityPublicKey = S.identity)
    (hne : S.identity ≠ [])
    (h : (d.register C now (registerBody req) dnsName).1.status < 400) :
    Owned S (d.register C now (registerBody req) dnsName).2 := by
  obtain ⟨reg, signature, id, hcheck, howner⟩ := HostDO.register_accepted C h
  obtain ⟨_, hparse, -⟩ := HostDO.checkRegistration_parts hcheck
  have hsame := parseHostRegistration_key (hkey ▸ hne) hparse
  refine ⟨id, _, howner, ?_⟩
  rw [hsame, hkey]
  exact b64uDecode_b64uEncode hne

theorem registered (h : Sound C S s) (hclock : s.object.clock ≤ env.now)
    (hi : s.loops i = .registering req) :
    Sound C S { s with
      object := ⟨(arrive C env (registerRequest req) s.object.object).2, env.now⟩
      loops := Signer.set s.loops i (afterRegister req
        (arrive C env (registerRequest req) s.object.object).1.status) } := by
  have hon (r : HostRequest) : Onward s.object (.request env r) := by
    rintro _ ⟨⟩
    exact hclock
  obtain ⟨hkey, hne⟩ := h.registering i req hi
  rcases arrive_eq (C := C) env (registerRequest req) s.object.object with
    ⟨hstatus, hsame⟩ | ⟨name, r, hroute, hstatus, hput⟩
  · have hobject := h.at_object (C := C) (hon .publicRecord) rfl
    rcases afterRegister_cases req
      (arrive C env (registerRequest req) s.object.object).1.status with
      hoff | ⟨-, hlt⟩
    · rw [hsame, hoff]
      exact hobject.stop i
    · omega
  · cases registerRequest_route hroute
    have hobject := h.at_object (C := C) (hon (.register (registerBody req))) rfl
    rw [hput]
    rcases afterRegister_cases req
      (arrive C env (registerRequest req) s.object.object).1.status with
      hoff | ⟨hwaiting, hlt⟩
    · rw [hoff]
      exact hobject.stop i
    · rw [hwaiting]
      rw [hstatus] at hlt
      have hname := h.named i req.registration.hostID (by rw [hi]; rfl)
      exact hobject.go_on i hname [] (owned_registered hkey hne hlt) (by simp)

theorem pending_step {hostID : GoString} (h : Sound C S s) (hi : s.loops i = .asking hostID)
    (hstep : (Signer.daemon S).step s.signer (.signPublications i now) = some t) :
    Sound C S { s with
      signer := t
      loops := Signer.set s.loops i (afterPending S hostID (s.signer.reads i)
        (s.signer.state.store.pendingPublications now)) } := by
  have howned := h.started i (by rw [hi]; trivial)
  have hname := h.named i hostID (by rw [hi]; rfl)
  have hok : Random s.signer (.signPublications i now) := ⟨trivial, trivial⟩
  have hcall := h.call hok (by simp) hstep
  unfold afterPending
  split
  · exact hcall.go_on i hname [] howned (by simp)
  · rename_i host hread
    split
    · exact hcall.go_on i hname [] howned (by simp)
    · rename_i pending hpending
      exact hcall.go_on i hname _ howned
        (Signer.signPublications_hasSigned hread hpending hstep)

theorem holds_published {C : Subtle} {d : HostDO}
    (h : (d.publishGrant C now (ofBytes pub.grant.grantID) (publishBody pub)).1.status < 400) :
    HoldsGrant (d.publishGrant C now (ofBytes pub.grant.grantID) (publishBody pub)).2
      pub.grant := by
  obtain ⟨host, grant, signature, -, hcheck, hput⟩ := HostDO.publishGrant_accepted C h
  obtain ⟨hparse, -⟩ := (HostDO.checkPublish_eq_ok C).mp hcheck
  cases parseGrant_publishBody hparse
  rw [hput]
  refine ⟨_, ?_, signature, now, rfl⟩
  rw [HostDO.get?_putGrant]
  exact if_pos rfl

theorem publish {hostID : GoString} (h : Sound C S s) (hclock : s.object.clock ≤ env.now)
    (hi : s.loops i = .publishing hostID pub rest) (answer : Response × HostDO)
    (hanswer : arrive C env (publishRequest hostID pub) s.object.object = answer)
    (turn : Loop × List GrantPublishRequest)
    (hturn : afterPublish hostID pub rest answer.1.status = turn) :
    Sound C S { s with
      object := ⟨answer.2, env.now⟩
      loops := Signer.set s.loops i turn.1
      accepted := turn.2 ++ s.accepted } := by
  have hon (r : HostRequest) : Onward s.object (.request env r) := by
    rintro _ ⟨⟩
    exact hclock
  have howned := h.started i (by rw [hi]; trivial)
  have hname := h.named i hostID (by rw [hi]; rfl)
  have hpending (p) (hp : p ∈ pub :: rest) : s.signer.HasSigned p.grant :=
    h.pending i p (by rw [hi]; exact hp)
  have hsigned := hpending pub List.mem_cons_self
  -- Whatever the loop does next, it goes on with what is left.
  have hloop {s' : World} (h' : Sound C S s') (hsigner : s'.signer = s.signer)
      (howned' : Owned S s'.object.object) :
      Sound C S { s' with loops := Signer.set s'.loops i turn.1 } := by
    subst hturn
    rcases (afterPublish_cases hostID pub rest answer.1.status).1 with hnext | hnext
    · rw [hnext]
      exact h'.go_on i hname [] howned' (by simp)
    · rw [hnext]
      exact h'.go_on i hname _ howned' fun p hp =>
        hsigner ▸ hpending p (List.mem_cons_of_mem _ hp)
  have hposted : turn.2 = [] ∨ turn.2 = [pub] ∧ answer.1.status < 400 :=
    hturn ▸ (afterPublish_cases hostID pub rest answer.1.status).2
  rcases arrive_eq (C := C) env (publishRequest hostID pub) s.object.object with
    ⟨hstatus, hsame⟩ | ⟨name, r, hroute, hstatus, hput⟩
  · rw [hanswer] at hstatus hsame
    have hobject := h.at_object (C := C) (hon .publicRecord) rfl
    rcases hposted with hnone | ⟨-, hlt⟩
    · rw [hnone, hsame]
      exact hloop hobject rfl (howned.perform _)
    · omega
  · rw [hanswer] at hstatus hput
    cases publishRequest_route hroute
    have hgenuine : genuine C S s.signed
        (.request env (.publishGrant (ofBytes pub.grant.grantID) (publishBody pub))) = true :=
      genuine_publishBody (Signer.drawn_reachable h.signer) hsigned
    have hobject := h.at_object (hon _) hgenuine
    rw [hput]
    rcases hposted with hnone | ⟨hone, hlt⟩
    · rw [hnone]
      exact hloop hobject rfl (howned.perform _)
    · rw [hone]
      rw [hstatus] at hlt
      exact hloop (hobject.accept hsigned (howned.perform _) (holds_published hlt)) rfl
        (howned.perform _)

theorem step (h : Sound C S s) (hok : Trusted C S s e) (hstep : Publishing.step C S s e = some t) :
    Sound C S t := by
  cases e with
  | signer req =>
    obtain ⟨signer, hsigner, heq⟩ := Option.bind_eq_some_iff.mp hstep
    cases heq
    refine h.call hok.2 (fun now id heq => ?_) hsigner
    rw [heq] at hok
    exact absurd hok.1 (by simp [Elsewhere])
  | object op =>
    cases hstep
    exact h.at_object hok.1 hok.2
  | register i now nonce =>
    simp only [Publishing.step] at hstep
    split at hstep
    · rename_i req hi hreg
      obtain ⟨signer, hsigner, heq⟩ := Option.bind_eq_some_iff.mp hstep
      cases heq
      exact h.register hok hreg hsigner
    · cases hstep
  | registered i env =>
    simp only [Publishing.step] at hstep
    split at hstep
    · rename_i req hi
      cases hstep
      exact h.registered hok hi
    · cases hstep
  | tick i =>
    simp only [Publishing.step] at hstep
    split at hstep
    · rename_i hostID hi
      obtain ⟨signer, hsigner, heq⟩ := Option.bind_eq_some_iff.mp hstep
      cases heq
      have hok : Random s.signer (.publications i) := ⟨trivial, trivial⟩
      refine (h.call hok (by simp) hsigner).at_loop i (fun id heq => ?_) (by simp) (fun _ => ?_)
        (by simp [Loop.pending])
      · exact h.named i id (by rw [hi]; exact heq)
      · exact h.started i (by rw [hi]; trivial)
    · cases hstep
  | pending i now =>
    simp only [Publishing.step] at hstep
    split at hstep
    · rename_i hostID hi
      obtain ⟨signer, hsigner, heq⟩ := Option.bind_eq_some_iff.mp hstep
      cases heq
      exact h.pending_step hi hsigner
    · cases hstep
  | publish i env =>
    simp only [Publishing.step] at hstep
    split at hstep
    · rename_i hostID pub rest hi
      cases hstep
      exact h.publish hok hi _ rfl _ rfl
    · cases hstep
  | refused i status =>
    simp only [Publishing.step] at hstep
    split at hstep
    · rename_i hostID pub rest hi
      split at hstep
      · cases hstep
        have howned := h.started i (by rw [hi]; trivial)
        have hname := h.named i hostID (by rw [hi]; rfl)
        rcases (afterPublish_cases hostID pub rest status).1 with hnext | hnext
        · rw [hnext]
          exact h.go_on i hname [] howned (by simp)
        · rw [hnext]
          exact h.go_on i hname _ howned fun p hp =>
            h.pending i p (by rw [hi]; exact List.mem_cons_of_mem _ hp)
      · cases hstep
    · cases hstep
  | failed i =>
    simp only [Publishing.step] at hstep
    split at hstep
    · rename_i hostID hi
      cases hstep
      exact h.go_on i (h.named i hostID (by rw [hi]; rfl)) []
        (h.started i (by rw [hi]; trivial)) (by simp)
    · rename_i hostID _ _ hi
      cases hstep
      exact h.go_on i (h.named i hostID (by rw [hi]; rfl)) []
        (h.started i (by rw [hi]; trivial)) (by simp)
    · cases hstep
  | stopped i =>
    cases hstep
    exact h.stop i
  | mark pub now =>
    simp only [Publishing.step] at hstep
    split at hstep
    · rename_i hpub
      obtain ⟨signer, hsigner, heq⟩ := Option.bind_eq_some_iff.mp hstep
      cases heq
      have hok : Random s.signer (.system (.markPublished now pub.grant.grantID)) :=
        ⟨trivial, trivial⟩
      refine h.at_signer hok hsigner fun now' id heq => ?_
      cases heq
      exact ⟨pub, hpub, rfl⟩
    · cases hstep

theorem reachable (hs : (publishing C S).Reachable (Trusted C S) s) : Sound C S s :=
  hs.invariant (I := Sound C S) (fun _ => init) fun _ _ _ h hok hstep => h.step hok hstep

end Sound

/-- A grant that the host has marked as published is at the service, as the
host has it, until a day after it has expired; and whatever the service gives
out under the id of a grant in the table is that grant. -/
theorem published_grants_held (hs : (publishing C S).Reachable (Trusted C S) s)
    (hr : r ∈ s.signer.state.store.grants.rows) :
    (r.publishedAt ≠ none →
      (∃ host row, Signer.Enrolled S host ∧
        s.object.object.grants.get? (ofBytes r.id) = some row ∧
        row.signedPayload = .obj (serializeGrant (servedGrant (Signer.publication host r)))) ∨
      r.expiresAt.toInt + HostDO.grantRetention < s.object.clock) ∧
    (Owned S s.object.object → ∀ row, s.object.object.grants.get? (ofBytes r.id) = some row →
      ∃ host, Signer.Enrolled S host ∧
        row.signedPayload = .obj (serializeGrant (servedGrant (Signer.publication host r)))) := by
  have hsound := Sound.reachable hs
  have hsteady := Signer.Steady.reachable hsound.signer
  refine ⟨fun hpublished => ?_, fun howned row hrow => ?_⟩
  · obtain ⟨pub, hpub, hid⟩ := hsound.marked r hr hpublished
    obtain ⟨hsigned, -, hkept⟩ := hsound.accepted pub hpub
    obtain ⟨host, henrolled, hgrant⟩ := hsteady.rows pub.grant hsigned r hr hid.symm
    rw [hgrant] at hkept
    rcases hkept with ⟨row, hrow, signature, now, rfl⟩ | hlate
    · exact .inl ⟨host, _, henrolled, hrow, rfl⟩
    · exact .inr hlate
  · obtain ⟨g, hsigned, hid, signature, now, rfl⟩ := hsound.rows howned.unclaimed _ row hrow
    obtain ⟨host, henrolled, rfl⟩ := hsteady.rows g hsigned r hr (ofBytes_inj hid)
    exact ⟨host, henrolled, rfl⟩

namespace Sample

open Service.Sample (webCrypto)
open Agent.Sample (sampleHost)

def initial : World :=
  ⟨⟨Signer.Sample.initial, fun _ => none, []⟩, ⟨.empty, 1700000000⟩, fun _ => .off, []⟩

def reading : Reading := ⟨1700000000, true, none⟩

def session : List Event :=
  Signer.Sample.setUp.map (.signer ∘ .system) ++
  [.register 0 1700000000 Signer.Sample.registrationNonce, .registered 0 reading, .tick 0,
    .pending 0 1700000000, .publish 0 reading]

theorem initial_reachable : (publishing C S).Reachable (Trusted C S) initial :=
  .of_init ⟨⟨⟨rfl, fun _ => rfl, fun _ => rfl, rfl⟩, fun _ => rfl, rfl⟩, rfl, fun _ => rfl, rfl⟩

def marked : Option World := do
  let s ← (publishing webCrypto sampleHost).exec (Trusted webCrypto sampleHost) initial session
  let pub ← s.accepted.head?
  (publishing webCrypto sampleHost).exec (Trusted webCrypto sampleHost) s [.mark pub 1700000001]

theorem marked_reachable (h : marked = some s) : (publishing webCrypto sampleHost).Reachable
    (Trusted webCrypto sampleHost) s := by
  simp only [marked, Option.bind_eq_bind, Option.bind_eq_some_iff] at h
  obtain ⟨u, hu, pub, -, hs⟩ := h
  exact (initial_reachable.run (.of_exec hu)).run (.of_exec hs)

end Sample

/-- One grant, published and marked a second later. -/
theorem published_grants_held_sample : ∃ s r host row,
    (publishing Service.Sample.webCrypto Agent.Sample.sampleHost).Reachable
      (Trusted Service.Sample.webCrypto Agent.Sample.sampleHost) s ∧
    r ∈ s.signer.state.store.grants.rows ∧ r.publishedAt = some 1700000001 ∧
    s.object.object.grants.get? (ofBytes r.id) = some row ∧
    row.signedPayload = .obj (serializeGrant (servedGrant (Signer.publication host r))) := by
  have hrun : Sample.marked.any (fun s => s.object.clock == 1700000000 &&
      s.signer.state.store.grants.rows.any fun r => r.publishedAt == some 1700000001 &&
        r.expiresAt == 1700001800) = true := by
    decide +kernel
  obtain ⟨s, hs, hfound⟩ := Option.any_eq_true .. |>.mp hrun
  simp only [Bool.and_eq_true, List.any_eq_true, beq_iff_eq] at hfound
  obtain ⟨hclock, r, hr, hpublished, hexpires⟩ := hfound
  have hreach := Sample.marked_reachable hs
  rcases (published_grants_held hreach hr).1 (by simp [hpublished]) with
    ⟨host, row, -, hrow, hpayload⟩ | hlate
  · exact ⟨s, r, host, row, hreach, hr, hpublished, hrow, hpayload⟩
  · rw [hclock, hexpires] at hlate
    exact absurd hlate (by decide)

end Grantd.Daemon.Publishing
