import Grantd.Daemon.Publishing

/-!
# A pass of the publish loop

From any state that sessions, losses and strangers may have led to, a pass whose
calls are answered marks every pending grant that the service may take at its
turn, save those the object itself has no room for: a grant that the service
refuses does not keep back the grants behind it.
-/

namespace Grantd.Daemon.Publishing

open Base Service Install
open JsonText (Tree Branches)
open Signer (GrantPublishRequest ClockInRange Random)

variable {C : Subtle} {S : Signer}

-- ---------------------------------------------------------------------------
-- One request
-- ---------------------------------------------------------------------------

theorem length_decimal (h : n < 10 ^ 20) : (Decimal.text n).length ≤ 20 := by
  rw [Decimal.text, List.length_map]
  exact (Nat.length_toDigits_le_iff (by decide) (by decide)).mpr h

theorem length_publishTree (h : WellMade g) (hsig : signature.length = 64) :
    (publishTree ⟨g, signature⟩).text.length ≤ maxRequestBytes := by
  obtain ⟨hzero, hmax, hmin, hlong⟩ := h.bounds
  have hhost := Protocol.length_of_matchesID h.hostID
  have hgrant := Protocol.length_of_matchesID h.grantID
  have huser := Protocol.length_of_validateSSHUser h.sshUser
  have hb64 : (Protocol.b64 signature).length = 86 := by
    simp [Protocol.b64, hsig, Rfc4648.groups]
  have hint {z : Int} (hz : 0 ≤ z) (hlt : z < 10 ^ 20) :
      (JsonText.Scalar.int z).text.length ≤ 20 := by
    simp only [JsonText.Scalar.text, if_neg (Int.not_lt.mpr hz), List.nil_append]
    exact length_decimal (by omega)
  have hversion := hint (z := g.version.toNat) (by omega) (by rw [h.version]; decide)
  have hcreated := hint (z := g.createdAt.toInt) hzero (by omega)
  have hexpires := hint (z := g.expiresAt.toInt) (by omega) (by omega)
  have hstr (s : Bytes) : (JsonText.Scalar.str s).text.length = s.length + 2 := by
    simp [JsonText.Scalar.text, JsonText.quoted]
  have hnames : (lit "grant").length = 5 ∧ (lit "signature").length = 9 ∧
      (lit "version").length = 7 ∧ (lit "host_id").length = 7 ∧ (lit "grant_id").length = 8 ∧
      (lit "ssh_user").length = 8 ∧ (lit "created_at").length = 10 ∧
      (lit "expires_at").length = 10 ∧ (lit "h_").length = 2 ∧ (lit "g_").length = 2 := by
    decide
  simp only [Protocol.maxUsernameBytes] at huser
  simp only [publishTree, grantTree, Tree.text, Branches.text, Branches.ofFlat, JsonText.quoted,
    List.length_cons, List.length_append, List.length_nil, maxRequestBytes, hstr, hb64]
  omega

theorem publishRequest_routed {hostID : GoString} (hid : Protocol.validHostID hostID = true)
    (h : WellMade g) (hsig : signature.length = 64) :
    hostRoute (publishRequest hostID ⟨g, signature⟩) =
      .ok (ofBytes hostID, .publishGrant (ofBytes g.grantID) (publishBody ⟨g, signature⟩)) := by
  have hsize := length_publishTree h hsig
  have hlength : (some ((publishTree ⟨g, signature⟩).text.length : Int)).any
      (fun n => decide ((maxRequestBytes : Int) < n)) = false := by
    simp only [Option.any_some, decide_eq_false_iff_not]
    omega
  simp only [hostRoute, publishRequest, putRequest, readJson, jsonParse_publishTree, bind_eq_ok,
    ensure_eq_ok, pure_eq_ok]
  exact ⟨(), beq_self_eq_true _, (), (hostIDRe_ofBytes hostID).trans hid, (), beq_self_eq_true _,
    (), (grantIDRe_ofBytes g.grantID).trans h.grantID, _, ⟨(), by rw [hlength]; rfl, (),
    decide_eq_true hsize, rfl⟩, rfl⟩

theorem hostID_ofBytes {id : GoString} (hash : C.sha256 = S.crypto.sha256)
    (h : Protocol.hostID S.crypto key = .ok id) : Service.hostID C key = .ok (ofBytes id) := by
  simp only [Protocol.hostID, Protocol.deriveID, Protocol.idMaterial, bind_eq_ok, ensure_eq_ok,
    pure_eq_ok] at h
  obtain ⟨_, ⟨_, hlen, rfl⟩, rfl⟩ := h
  have htag : js "h_" = ofBytes (lit "h_") := by decide
  simp only [Service.hostID, Service.idMaterial, bind_eq_ok, ensure_eq_ok, pure_eq_ok]
  refine ⟨_, ⟨(), hlen, rfl⟩, ?_⟩
  rw [base32Encode_eq, htag, hash, ofBytes, ofBytes, ofBytes, List.map_append]

theorem Sound.registered_object {hostID : GoString} (h : Sound C S s)
    (hash : C.sha256 = S.crypto.sha256) (hi : (s.loops i).Started)
    (hname : Protocol.hostID S.crypto S.identity = .ok hostID) :
    s.object.object.Registered S hostID := by
  obtain ⟨id, key, howner, hkey⟩ := h.started i hi
  obtain ⟨row, hrow, rfl, rfl⟩ := HostDO.owner_eq_some.mp howner
  obtain ⟨m, signature, hcertified, hholds⟩ := Consistent.reachable h.object row hrow
  have hne : m.identityPublicKey ≠ [] := by
    intro hnil
    have hlen := hcertified.valid.identityPublicKey
    rw [hnil] at hlen
    cases hlen
  rw [hholds.identityPublicKey, b64uDecode_b64uEncode hne, Option.some.injEq] at hkey
  refine ⟨row, m, signature, hrow, hholds, ?_, hkey⟩
  have hderived := hcertified.derived
  rw [hkey, hostID_ofBytes hash hname] at hderived
  exact (Except.ok.inj hderived).symm

-- ---------------------------------------------------------------------------
-- One turn
-- ---------------------------------------------------------------------------

def World.Marked (s : World) (id : GoString) : Prop :=
  ∃ r ∈ s.signer.state.store.grants.rows, r.id = id ∧ r.publishedAt ≠ none

variable (C S) in
/-- `t` follows `s`, and no row and no mark is gone. -/
structure Advances (s t : World) : Prop where
  run : (publishing C S).Run (Trusted C S) s t
  rows : ∀ r ∈ s.signer.state.store.grants.rows,
    ∃ r' ∈ t.signer.state.store.grants.rows, r'.id = r.id
  marked : ∀ id, s.Marked id → t.Marked id

theorem Advances.trans (h : Advances C S s t) (h' : Advances C S t u) : Advances C S s u where
  run := h.run.trans h'.run
  rows := by
    intro r hr
    obtain ⟨r', hr', hid⟩ := h.rows r hr
    obtain ⟨r'', hr'', hid'⟩ := h'.rows r' hr'
    exact ⟨r'', hr'', hid'.trans hid⟩
  marked := fun id hid => h'.marked id (h.marked id hid)

theorem Advances.of_step (hok : Trusted C S s e) (hstep : step C S s e = some t)
    (hsigner : t.signer.state = s.signer.state) : Advances C S s t where
  run := .of_step hok hstep
  rows := fun r hr => ⟨r, by rw [hsigner]; exact hr, rfl⟩
  marked := by
    rintro id ⟨r, hr, hmark⟩
    exact ⟨r, by rw [hsigner]; exact hr, hmark⟩

theorem Advances.mark (hpub : pub ∈ s.accepted)
    (hid : Protocol.validGrantID pub.grant.grantID = true) (now : Int64)
    (hrow : ∃ r ∈ s.signer.state.store.grants.rows, r.id = pub.grant.grantID) :
    ∃ t, step C S s (.mark pub now) = some t ∧ Advances C S s t ∧ t.loops = s.loops ∧
      t.object = s.object ∧ t.Marked pub.grant.grantID := by
  let f := Signer.Store.markPublishedRow pub.grant.grantID now
  have hkeep {r : Signer.GrantRow} (hr : r.publishedAt ≠ none) : (f r).publishedAt ≠ none := by
    simp only [f, Signer.Store.markPublishedRow]
    split
    · simp
    · exact hr
  have hstep : step C S s (.mark pub now) = some { s with signer :=
      { s.signer with
        state := { s.signer.state with
          store := s.signer.state.store.markPublished pub.grant.grantID now } } } := by
    simp only [step, if_pos hpub]
    have hsystem : Signer.step S s.signer.state (.markPublished now pub.grant.grantID) =
        some { s.signer.state with
          store := s.signer.state.store.markPublished pub.grant.grantID now } := if_pos hid
    simp only [Signer.daemon, Signer.next, hsystem, Option.map_some]
    rfl
  have hok : Trusted C S s (.mark pub now) := trivial
  refine ⟨_, hstep, ⟨.of_step hok hstep, fun r hr => ?_, ?_⟩, rfl, rfl, ?_⟩
  · exact ⟨f r, List.mem_map_of_mem hr, Signer.Store.markPublishedRow_id r⟩
  · rintro id ⟨r, hr, hid, hmark⟩
    exact ⟨f r, List.mem_map_of_mem hr, (Signer.Store.markPublishedRow_id r).trans hid, hkeep hmark⟩
  · obtain ⟨r, hr, hgrant⟩ := hrow
    refine ⟨f r, List.mem_map_of_mem hr, (Signer.Store.markPublishedRow_id r).trans hgrant, ?_⟩
    simp [f, Signer.Store.markPublishedRow, hgrant]

variable (C S) in
/-- The body of the inner loop: the request and, once it is accepted, the
mark. -/
def World.turn (i : Nat) (env : Reading) (now : Int64) (s : World) : Option World :=
  match s.loops i with
  | .publishing _ pub _ => do
    let t ← step C S s (.publish i env)
    if t.accepted = s.accepted then some t else step C S t (.mark pub now)
  | _ => none

theorem step_publish {hostID : GoString} (hi : s.loops i = .publishing hostID pub rest)
    (harrive : arrive C env (publishRequest hostID pub) s.object.object = (r, d))
    (hturn : afterPublish hostID pub rest r.status = (loop, posted)) :
    step C S s (.publish i env) = some { s with
      object := ⟨d, env.now⟩
      loops := Signer.set s.loops i loop
      accepted := posted ++ s.accepted } := by
  simp only [step, hi, harrive, hturn]

theorem turn_refused {hostID : GoString} {env : Reading} (now : Int64)
    (hi : s.loops i = .publishing hostID pub rest) (hclock : s.object.clock ≤ env.now)
    (harrive : arrive C env (publishRequest hostID pub) s.object.object = (r, d))
    (hlow : 400 ≤ r.status) (hhigh : r.status < 500) :
    ∃ t, s.turn C S i env now = some t ∧ Advances C S s t ∧ t.loops i = .over hostID rest ∧
      t.object = ⟨d, env.now⟩ := by
  have hturn : afterPublish hostID pub rest r.status = (.over hostID rest, []) := by
    simp only [afterPublish, put, if_neg (Nat.not_le.mpr hhigh), if_pos hlow]
  have hstep := step_publish (S := S) hi harrive hturn
  have hok : Trusted C S s (.publish i env) := hclock
  refine ⟨_, ?_, .of_step hok hstep rfl, Signer.set_same .., rfl⟩
  simp only [World.turn, hi, hstep, Option.bind_eq_bind, Option.bind_some, List.nil_append, if_true]

theorem turn_accepted {hostID : GoString} {env : Reading} (now : Int64)
    (hi : s.loops i = .publishing hostID pub rest) (hclock : s.object.clock ≤ env.now)
    (harrive : arrive C env (publishRequest hostID pub) s.object.object = (r, d))
    (hstatus : r.status < 400) (hid : Protocol.validGrantID pub.grant.grantID = true)
    (hrow : ∃ r ∈ s.signer.state.store.grants.rows, r.id = pub.grant.grantID) :
    ∃ t, s.turn C S i env now = some t ∧ Advances C S s t ∧ t.loops i = .over hostID rest ∧
      t.object = ⟨d, env.now⟩ ∧ t.Marked pub.grant.grantID := by
  have hturn : afterPublish hostID pub rest r.status = (.over hostID rest, [pub]) := by
    simp only [afterPublish, put, if_neg (show ¬ 500 ≤ r.status by omega),
      if_neg (Nat.not_le.mpr hstatus)]
  have hstep := step_publish (S := S) hi harrive hturn
  have hok : Trusted C S s (.publish i env) := hclock
  obtain ⟨t, hmark, hadvance, hloops, hobject, hmarked⟩ := Advances.mark (C := C) (S := S)
    (s := { s with
      object := ⟨d, env.now⟩
      loops := Signer.set s.loops i (.over hostID rest)
      accepted := [pub] ++ s.accepted }) List.mem_cons_self hid now hrow
  have hnew : [pub] ++ s.accepted ≠ s.accepted := by simp
  refine ⟨t, ?_, (Advances.of_step hok hstep rfl).trans hadvance, ?_, hobject, hmarked⟩
  · simp only [World.turn, hi, hstep, Option.bind_eq_bind, Option.bind_some, if_neg hnew, hmark]
  · rw [hloops]
    exact Signer.set_same ..

-- ---------------------------------------------------------------------------
-- The object's answer
-- ---------------------------------------------------------------------------

def Due (now : Int) (createdAt expiresAt : Int64) : Prop :=
  createdAt.toInt - 300 ≤ now ∧ now < expiresAt.toInt

theorem checkPublish_refused (hC : Verifies C S) (h : WellMade g)
    (hcanon : canonicalGrant (servedGrant g) = .ok msg) (hid : row.hostID = ofBytes g.hostID)
    (hkey : row.identityPublicKey = b64uEncode S.identity)
    (htime : ¬ Due now g.createdAt g.expiresAt) :
    ∃ r, HostDO.checkPublish C now (ofBytes g.grantID) (publishBody ⟨g, S.sign msg⟩) row =
      .error r ∧
      400 ≤ r.status ∧ r.status < 500 := by
  rw [h.checkPublish_eq hC hcanon hid hkey]
  by_cases hexpires : now < g.expiresAt.toInt
  · have hcreated : ¬ g.createdAt.toInt ≤ now + skewRegistration := by
      simp only [Due, skewRegistration] at htime ⊢
      omega
    rw [decide_eq_true hexpires, decide_eq_false hcreated]
    exact ⟨_, rfl, by decide, by decide⟩
  · rw [decide_eq_false hexpires]
    exact ⟨_, rfl, by decide, by decide⟩

theorem publishGrant_full {grantID : JsString} {d : HostDO} (hhost : d.host = some host)
    (hcheck : HostDO.checkPublish C now grantID body host = .ok (grant, signature))
    (hnew : d.grants.get? grantID = none) (hfull : HostDO.maxPublishedGrants ≤ d.live now) :
    d.publishGrant C now grantID body =
      (errorResponse .tooManyGrants "too many active grants for this host", d) := by
  have hcap : (decide (HostDO.maxPublishedGrants ≤ d.grants.count (now < ·.expiresAt)) &&
      (d.grants.get? grantID).isNone) = true := by
    rw [Bool.and_eq_true]
    exact ⟨decide_eq_true hfull, by rw [hnew]; rfl⟩
  simp only [HostDO.publishGrant, hhost, hcheck]
  rw [if_pos hcap]

variable (C) in
/-- It is the turn of the grant, and the object refuses it for want of room. -/
def World.Crowded (i : Nat) (env : Reading) (id : GoString) (s : World) : Prop :=
  ∃ hostID pub rest, s.loops i = .publishing hostID pub rest ∧ pub.grant.grantID = id ∧
    HostDO.maxPublishedGrants ≤ s.object.object.live env.now ∧
    (arrive C env (publishRequest hostID pub) s.object.object).1 =
      errorResponse .tooManyGrants "too many active grants for this host"

variable (S) in
structure Genuine (pub : GrantPublishRequest) : Prop where
  made : WellMade pub.grant
  signed : ∃ msg, pub.grant.canonical = .ok msg ∧ pub.signature = S.sign msg
  host : Protocol.hostID S.crypto S.identity = .ok pub.grant.hostID

/-- Whatever the object answers, the pass goes on and takes up the room of one
grant at most; a grant that is due is marked or finds no room. -/
theorem turn_goes_on {hostID : GoString} {env : Reading} (hC : Verifies C S)
    (hash : C.sha256 = S.crypto.sha256) (hs : (publishing C S).Reachable (Trusted C S) s)
    (hi : s.loops i = .publishing hostID pub rest) (hclock : s.object.clock ≤ env.now)
    (hpub : Genuine S pub) (now : Int64)
    (hrow : ∃ r ∈ s.signer.state.store.grants.rows, r.id = pub.grant.grantID) :
    ∃ t, s.turn C S i env now = some t ∧ Advances C S s t ∧ t.loops i = .over hostID rest ∧
      t.object.clock = env.now ∧
      t.object.object.live env.now ≤ s.object.object.live env.now + 1 ∧
      (Due env.now pub.grant.createdAt pub.grant.expiresAt →
        t.Marked pub.grant.grantID ∨ s.Crowded C i env pub.grant.grantID) := by
  have hsound := Sound.reachable hs
  have hname := hsound.named i hostID (by rw [hi]; rfl)
  have hid : hostID = pub.grant.hostID := Except.ok.inj (hname.symm.trans hpub.host)
  obtain ⟨row, m, regSignature, hhost, hholds, hrowID, hidentity⟩ :=
    hsound.registered_object hash (by rw [hi]; trivial) hname
  obtain ⟨g, signature⟩ := pub
  obtain ⟨msg, hmsg, hsig⟩ := hpub.signed
  obtain ⟨msg', hmsg', hcanon⟩ := hpub.made.canonical
  cases hmsg.symm.trans hmsg'
  simp only at hsig
  subst hsig
  have hrowHost : row.hostID = ofBytes g.hostID :=
    hholds.hostID.trans (hrowID.trans (by rw [hid]))
  have hrowKey : row.identityPublicKey = b64uEncode S.identity :=
    hholds.identityPublicKey.trans (congrArg b64uEncode hidentity)
  have hroute := publishRequest_routed (hid ▸ hpub.made.hostID) hpub.made (hC.lengths msg).2
  have harrive : arrive C env (publishRequest hostID ⟨g, S.sign msg⟩) s.object.object =
      s.object.object.publishGrant C env.now (ofBytes g.grantID) (publishBody ⟨g, S.sign msg⟩) := by
    simp only [arrive, hroute, fetch]
  by_cases hdue : Due env.now g.createdAt g.expiresAt
  · have hcheck := hpub.made.checkPublish hC hcanon hrowHost hrowKey hdue.1 hdue.2
    by_cases hroom : s.object.object.grants.get? (ofBytes g.grantID) = none →
        s.object.object.live env.now < HostDO.maxPublishedGrants
    · rw [HostDO.publishGrant_taken C hhost hcheck hroom] at harrive
      obtain ⟨t, hturn, hadvance, hloop, hobject, hmarked⟩ :=
        turn_accepted now hi hclock harrive (show 201 < 400 by decide) hpub.made.grantID hrow
      refine ⟨t, hturn, hadvance, hloop, by rw [hobject], ?_, fun _ => .inl hmarked⟩
      rw [hobject]
      exact HostDO.live_putGrant_le ..
    · push Not at hroom
      obtain ⟨hnew, hfull⟩ := hroom
      rw [publishGrant_full hhost hcheck hnew hfull] at harrive
      obtain ⟨t, hturn, hadvance, hloop, hobject⟩ :=
        turn_refused now hi hclock harrive (by decide) (by decide)
      exact ⟨t, hturn, hadvance, hloop, by rw [hobject], by rw [hobject]; exact Nat.le_succ _,
        fun _ => .inr ⟨hostID, _, rest, hi, rfl, hfull, by rw [harrive]⟩⟩
  · obtain ⟨r, hcheck, hlow, hhigh⟩ :=
      checkPublish_refused hC hpub.made hcanon hrowHost hrowKey hdue
    have hanswer : s.object.object.publishGrant C env.now (ofBytes g.grantID)
        (publishBody ⟨g, S.sign msg⟩) = (r, s.object.object) := by
      simp only [HostDO.publishGrant, hhost, hcheck]
    obtain ⟨t, hturn, hadvance, hloop, hobject⟩ :=
      turn_refused now hi hclock (harrive.trans hanswer) hlow hhigh
    exact ⟨t, hturn, hadvance, hloop, by rw [hobject], by rw [hobject]; exact Nat.le_succ _,
      fun h => absurd h hdue⟩

-- ---------------------------------------------------------------------------
-- The whole pass
-- ---------------------------------------------------------------------------

variable (C S) in
/-- The loop at its ticker asks, and goes through the first `n` publications.
The service reads `env k` at request `k`, and the signer `marks k` at its mark. -/
def World.pass (i : Nat) (now : Int64) (env : Nat → Reading) (marks : Nat → Int64) (s : World) :
    Nat → Option World
  | 0 => do
    let u ← step C S s (.tick i)
    step C S u (.pending i now)
  | n + 1 => do
    let u ← pass i now env marks s n
    u.turn C S i (env n) (marks n)

theorem pass_succ {s u : World} (hpass : s.pass C S i now env marks n = some u)
    (hturn : u.turn C S i (env n) (marks n) = some t) :
    s.pass C S i now env marks (n + 1) = some t := by
  simp only [World.pass, hpass, Option.bind_eq_bind, Option.bind_some, hturn]

theorem pass_zero {hostID : GoString} (env : Nat → Reading) (marks : Nat → Int64)
    (hi : s.loops i = .waiting hostID) (hhost : s.signer.state.store.host = some h)
    (hpending : S.signPublications h (s.signer.state.store.pendingPublications now) = .ok pending) :
    ∃ u, s.pass C S i now env marks 0 = some u ∧ Advances C S s u ∧
      u.loops i = .over hostID pending ∧ u.object = s.object := by
  let asking : World := { s with
    signer := ⟨s.signer.state, Signer.set s.signer.reads i s.signer.state.store.host,
      s.signer.signed⟩
    loops := Signer.set s.loops i (.asking hostID) }
  have htick : step C S s (.tick i) = some asking := by
    simp only [step, hi]
    rfl
  have hread : asking.signer.reads i = some h := (Signer.set_same ..).trans hhost
  have hasking : asking.loops i = .asking hostID := Signer.set_same ..
  obtain ⟨signer, hsigner, hstate⟩ : ∃ signer,
      (Signer.daemon S).step asking.signer (.signPublications i now) = some signer ∧
        signer.state = s.signer.state := ⟨_, rfl, rfl⟩
  have hanswer : step C S asking (.pending i now) = some { asking with
      signer
      loops := Signer.set asking.loops i (.over hostID pending) } := by
    simp only [step, hasking, hsigner, hread, afterPending]
    rw [show asking.signer.state = s.signer.state from rfl, hpending]
    rfl
  have hok : Trusted C S s (.tick i) := trivial
  have hok' : Trusted C S asking (.pending i now) := trivial
  refine ⟨_, ?_, (Advances.of_step hok htick rfl).trans (.of_step hok' hanswer hstate),
    Signer.set_same .., rfl⟩
  simp only [World.pass, htick, Option.bind_eq_bind, Option.bind_some, hanswer]

variable (C S) in
structure Passed (i : Nat) (now : Int64) (env : Nat → Reading) (marks : Nat → Int64)
    (hostID : GoString) (pending : List GrantPublishRequest) (s : World) (n : Nat) (u : World) :
    Prop where
  pass : s.pass C S i now env marks n = some u
  advances : Advances C S s u
  loop : u.loops i = .over hostID (pending.drop n)
  clock : u.object.clock ≤ (env n).now
  room : u.object.object.live (env n).now ≤ s.object.object.live (env 0).now + n
  settled : ∀ k pub, k < n → pending[k]? = some pub →
    Due (env k).now pub.grant.createdAt pub.grant.expiresAt → u.Marked pub.grant.grantID ∨
      ∃ v, s.pass C S i now env marks k = some v ∧ v.Crowded C i (env k) pub.grant.grantID ∧
        HostDO.maxPublishedGrants ≤ s.object.object.live (env 0).now + k

theorem Passed.next {hostID : GoString} (hC : Verifies C S) (hash : C.sha256 = S.crypto.sha256)
    (hs : (publishing C S).Reachable (Trusted C S) s)
    (hmono : ∀ n, (env n).now ≤ (env (n + 1)).now) (hpub : ∀ pub ∈ pending, Genuine S pub)
    (hrow : ∀ pub ∈ pending, ∃ r ∈ s.signer.state.store.grants.rows, r.id = pub.grant.grantID)
    (h : Passed C S i now env marks hostID pending s n u) (hn : n < pending.length) :
    ∃ t, Passed C S i now env marks hostID pending s (n + 1) t := by
  have hmem := List.getElem_mem hn
  have hi : u.loops i = .publishing hostID pending[n] (pending.drop (n + 1)) := by
    rw [h.loop, List.drop_eq_getElem_cons hn]
    rfl
  have hrow' : ∃ r ∈ u.signer.state.store.grants.rows, r.id = pending[n].grant.grantID := by
    obtain ⟨r, hr, hid⟩ := hrow _ hmem
    obtain ⟨r', hr', hid'⟩ := h.advances.rows r hr
    exact ⟨r', hr', hid'.trans hid⟩
  obtain ⟨t, hturn, hadvance, hloop, hobject, hlive, hmark⟩ := turn_goes_on hC hash
    (hs.run h.advances.run) hi h.clock (hpub _ hmem) (marks n) hrow'
  have hlater := t.object.object.live_later (hmono n)
  have hroom := h.room
  refine ⟨t, pass_succ h.pass hturn, h.advances.trans hadvance, hloop, hobject ▸ hmono n, by omega,
    fun k pub hk hget hdue => ?_⟩
  rcases Nat.lt_succ_iff_lt_or_eq.mp hk with hk | rfl
  · rcases h.settled k pub hk hget hdue with hmarked | hcrowded
    · exact .inl (hadvance.marked _ hmarked)
    · exact .inr hcrowded
  · cases (List.getElem?_eq_getElem hn).symm.trans hget
    rcases hmark hdue with hmarked | hcrowded
    · exact .inl hmarked
    · have hfull : HostDO.maxPublishedGrants ≤ u.object.object.live (env k).now := by
        obtain ⟨_, _, _, -, -, hfull, -⟩ := hcrowded
        exact hfull
      exact .inr ⟨u, h.pass, hcrowded, Nat.le_trans hfull hroom⟩

theorem exists_passed {hostID : GoString} (hC : Verifies C S) (hash : C.sha256 = S.crypto.sha256)
    (hs : (publishing C S).Reachable (Trusted C S) s)
    (hmono : ∀ n, (env n).now ≤ (env (n + 1)).now) (hpub : ∀ pub ∈ pending, Genuine S pub)
    (hrow : ∀ pub ∈ pending, ∃ r ∈ s.signer.state.store.grants.rows, r.id = pub.grant.grantID)
    (h : Passed C S i now env marks hostID pending s 0 u) (hn : n ≤ pending.length) :
    ∃ t, Passed C S i now env marks hostID pending s n t := by
  induction n with
  | zero => exact ⟨u, h⟩
  | succ n ih =>
    obtain ⟨t, ht⟩ := ih (by omega)
    exact ht.next hC hash hs hmono hpub hrow hn

/-- From every state that can come about, a pass whose calls are answered goes
through all the pending grants. Each one that the service may take when its turn
comes is marked, unless the object refuses that grant for want of room; what
becomes of the others does not matter to it. The `n`th grant finds room if the
object has room for it and those before it. -/
theorem pass_marks_pending {hostID : GoString} (env : Nat → Reading) (marks : Nat → Int64)
    (now : Int64) (hC : Verifies C S) (hash : C.sha256 = S.crypto.sha256)
    (hs : (publishing C S).Reachable (Trusted C S) s) (hi : s.loops i = .waiting hostID)
    (hhost : s.signer.state.store.host = some h) (hclock : s.object.clock ≤ (env 0).now)
    (hmono : ∀ n, (env n).now ≤ (env (n + 1)).now)
    (hrange : ∀ r ∈ s.signer.state.store.pendingPublications now, ClockInRange r.createdAt) :
    ∃ t, s.pass C S i now env marks (s.signer.state.store.pendingPublications now).length = some t ∧
      (publishing C S).Run (Trusted C S) s t ∧ t.loops i = .waiting hostID ∧
      ∀ n r, (s.signer.state.store.pendingPublications now)[n]? = some r →
        Due (env n).now r.createdAt r.expiresAt →
          (t.Marked r.id ∨
            ∃ u, s.pass C S i now env marks n = some u ∧ u.Crowded C i (env n) r.id) ∧
          (s.object.object.live (env 0).now + n < HostDO.maxPublishedGrants → t.Marked r.id) := by
  have hsound := Sound.reachable hs
  have hclean := Signer.Clean.reachable (Signer.drawn_reachable hsound.signer)
  have henrolled := hclean.host h hhost
  have hrow {r} (hr : r ∈ s.signer.state.store.pendingPublications now) :
      r ∈ s.signer.state.store.grants.rows :=
    (List.mem_filter.mp (List.mem_mergeSort.mp hr)).1
  have hmade (r) (hr : r ∈ s.signer.state.store.pendingPublications now) :
      WellMade (Signer.publication h r) := by
    obtain ⟨ttl, hwindow⟩ :=
      (Signer.Dated.reachable (Signer.drawn_reachable hsound.signer)).rows r (hrow hr)
    obtain ⟨hid, huser⟩ := hclean.rows r (hrow hr)
    exact ⟨rfl, Protocol.matchesID_deriveID S.crypto henrolled.hostID, hid, huser, hrange r hr,
      ttl, Signer.createWindow_inRange (hrange r hr) hwindow⟩
  obtain ⟨pending, hpending, hgrants⟩ := Signer.signPublications_isOk (S := S)
    fun r hr => (hmade r hr).canonical.imp fun _ hmsg => hmsg.1
  have hlength : pending.length = (s.signer.state.store.pendingPublications now).length := by
    simpa using congrArg List.length hgrants
  obtain ⟨u, hstart, hadvance, hu, hobject⟩ := pass_zero (C := C) env marks hi hhost hpending
  -- Each publication comes from a row.
  have horigin {pub} (hpub : pub ∈ pending) := Signer.signPublications_mem hpending hpub
  obtain ⟨t, ht⟩ := exists_passed hC hash hs hmono
    (fun pub hpub => by
      obtain ⟨r, hr, msg, hmsg, rfl⟩ := horigin hpub
      exact ⟨hmade r hr, ⟨msg, hmsg, rfl⟩, henrolled.hostID⟩)
    (fun pub hpub => by
      obtain ⟨r, hr, msg, hmsg, rfl⟩ := horigin hpub
      exact ⟨r, hrow hr, rfl⟩)
    ⟨hstart, hadvance, hu, by rw [hobject]; exact hclock, by rw [hobject]; exact Nat.le_refl _,
      fun _ _ hk => absurd hk (Nat.not_lt_zero _)⟩
    (Nat.le_refl pending.length)
  refine ⟨t, hlength ▸ ht.pass, ht.advances.run, ?_, fun n r hr hdue => ?_⟩
  · rw [ht.loop, List.drop_length]
    rfl
  · have hget : (pending.map (·.grant))[n]? = some (Signer.publication h r) := by
      rw [hgrants, List.getElem?_map, hr, Option.map_some]
    rw [List.getElem?_map, Option.map_eq_some_iff] at hget
    obtain ⟨pub, hpub, hgrant⟩ := hget
    have hn : n < pending.length := (List.getElem?_eq_some_iff.mp hpub).1
    have hsettled := ht.settled n pub hn hpub
    rw [hgrant] at hsettled
    rcases hsettled hdue with hmarked | ⟨v, hv, hcrowded, hfull⟩
    · exact ⟨.inl hmarked, fun _ => hmarked⟩
    · exact ⟨.inr ⟨v, hv, hcrowded⟩, fun hroom => absurd hroom (Nat.not_lt.mpr hfull)⟩

namespace Sample

open Signer (hex)
open Service.Sample (webCrypto)
open Agent.Sample (sampleHost)

def shortGrant : Protocol.Grant :=
  ⟨1, Signer.Sample.hostID, lit "g_aeaqcaibaeaqcaib", Signer.Sample.user, 1700000000, 1700000060⟩

/-- The identity key's signature on `shortGrant`. -/
def shortSignature : Bytes :=
  hex "4d48e66003f780088e2fd1bd2b7d94b19ea957eb2c975fe3a898dc990babccbd" ++
    hex "a5efe595e10aca4634f185a37b93e9aec1e28648c04dfee04adb2a2509e68a00"

def busyHost : Signer :=
  { sampleHost with
    sign := fun msg =>
      if shortGrant.canonical.toOption = some msg then shortSignature else sampleHost.sign msg }

theorem verifies_busyHost : Verifies webCrypto busyHost := by
  intro msg
  have hsign : (busyHost.sign msg).length = 64 := by
    have hshort : shortSignature.length = 64 := by decide +kernel
    simp only [busyHost]
    split
    · exact hshort
    · exact (Service.Sample.verifies.lengths msg).2
  have hidentity : busyHost.identity.length = 32 := (Service.Sample.verifies.lengths msg).1
  simp [verifyEd25519, hidentity, hsign, webCrypto]

/-- A grant for a minute and one for half an hour, and a session whose loop has
not ticked yet. -/
def connected : List Event :=
  [.enroll 1700000000 Signer.Sample.user (lit "host.example") 22
      (Protocol.publicSSHLine Signer.Sample.hostKey), .createStart 0 1700000000 60].map
    (.signer ∘ .system) ++
  List.replicate 3 (.signer (.system (.create 0 ⟨List.replicate 10 1, Signer.Sample.secret⟩))) ++
  [.signer (.system (.createStart 1 1700000000 1800))] ++
  List.replicate 3 (.signer (.system (.create 1 ⟨List.replicate 10 0, Signer.Sample.secret⟩))) ++
  [.register 0 1700000000 Signer.Sample.registrationNonce, .registered 0 reading]

/-- The service's clock is ahead of the host's. -/
def ahead : Reading := ⟨1700000100, true, none⟩

def found (s : World) : Option (GoString × Signer.Host) :=
  match s.loops 0, s.signer.state.store.host with
  | .waiting hostID, some h => some (hostID, h)
  | _, _ => none

theorem found_eq_some {hostID : GoString} (h : found s = some (hostID, host)) :
    s.loops 0 = .waiting hostID ∧ s.signer.state.store.host = some host := by
  unfold found at h
  split at h
  · rename_i hi hhost
    cases h
    exact ⟨hi, hhost⟩
  · cases h

theorem pendingPublications_pair {st : Signer.Store} (h : st.grants.rows.map
      (fun r => (r.publishedAt, r.revokedAt, r.createdAt, r.expiresAt)) =
        [(none, none, 1700000000, 1700000060), (none, none, 1700000000, 1700001800)]) :
    ∃ r₁ r₂, st.pendingPublications 1700000000 = [r₁, r₂] ∧
      (r₁.createdAt = 1700000000 ∧ r₁.expiresAt = 1700000060) ∧
      (r₂.createdAt = 1700000000 ∧ r₂.expiresAt = 1700001800) := by
  obtain ⟨r₁, rest, hrows, hr₁, hrest⟩ := List.map_eq_cons_iff.mp h
  obtain ⟨r₂, rest, rfl, hr₂, hnil⟩ := List.map_eq_cons_iff.mp hrest
  cases List.map_eq_nil_iff.mp hnil
  simp only [Prod.mk.injEq] at hr₁ hr₂
  refine ⟨r₁, r₂, ?_, hr₁.2.2, hr₂.2.2⟩
  have hlive : (1700000060 : Int64) > 1700000000 ∧ (1700001800 : Int64) > 1700000000 := by decide
  simp only [Signer.Store.pendingPublications, hrows, List.filter_cons, List.filter_nil, hr₁, hr₂,
    hlive, Option.isNone_none, decide_true, Bool.and_self, if_true]
  refine List.mergeSort_of_pairwise (List.pairwise_pair.mpr ?_)
  rw [hr₁.2.2.1, hr₂.2.2.1]
  decide

end Sample

/-- To the service the first grant has expired. The second one is marked. -/
theorem pass_marks_pending_sample : ∃ s r₁ r₂ t,
    (publishing Service.Sample.webCrypto Sample.busyHost).Reachable
      (Trusted Service.Sample.webCrypto Sample.busyHost) s ∧
    s.signer.state.store.pendingPublications 1700000000 = [r₁, r₂] ∧
    r₁.expiresAt = 1700000060 ∧
    s.pass Service.Sample.webCrypto Sample.busyHost 0 1700000000 (fun _ => Sample.ahead)
      (fun _ => 1700000001) 2 = some t ∧ t.Marked r₂.id := by
  have hrun : ((publishing Service.Sample.webCrypto Sample.busyHost).exec
      (Trusted Service.Sample.webCrypto Sample.busyHost) Sample.initial
      Sample.connected).any (fun s => (Sample.found s).isSome && s.object.clock == 1700000000 &&
        s.object.object.live Sample.ahead.now == 0 && s.signer.state.store.grants.rows.map
          (fun r => (r.publishedAt, r.revokedAt, r.createdAt, r.expiresAt)) ==
            [(none, none, 1700000000, 1700000060), (none, none, 1700000000, 1700001800)]) =
              true := by
    decide +kernel
  obtain ⟨s, hs, hfound⟩ := Option.any_eq_true .. |>.mp hrun
  simp only [Bool.and_eq_true, beq_iff_eq] at hfound
  obtain ⟨⟨⟨hsome, hclock⟩, hlive⟩, hpending⟩ := hfound
  obtain ⟨⟨hostID, h⟩, hfound⟩ := Option.isSome_iff_exists.mp hsome
  obtain ⟨hi, hhost⟩ := Sample.found_eq_some hfound
  obtain ⟨r₁, r₂, hrows, hr₁, hr₂⟩ := Sample.pendingPublications_pair hpending
  have hreach := Sample.initial_reachable.run (.of_exec hs)
  obtain ⟨t, hpass, -, -, hmarked⟩ := pass_marks_pending (fun _ => Sample.ahead)
    (fun _ => 1700000001) 1700000000 Sample.verifies_busyHost rfl hreach hi hhost
    (by rw [hclock]; decide) (fun _ => Int.le_refl _) fun q hq => by
      rw [hrows] at hq
      rcases List.mem_pair.mp hq with rfl | rfl
      · rw [hr₁.1]
        exact ⟨by decide, by decide⟩
      · rw [hr₂.1]
        exact ⟨by decide, by decide⟩
  rw [hrows] at hpass hmarked
  refine ⟨s, r₁, r₂, t, hreach, hrows, hr₁.2, hpass, ?_⟩
  refine (hmarked 1 r₂ rfl ⟨by rw [hr₂.1]; decide, by rw [hr₂.2]; decide⟩).2 ?_
  rw [hlive]
  decide

end Grantd.Daemon.Publishing
