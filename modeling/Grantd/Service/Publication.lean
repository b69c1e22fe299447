import Grantd.Base.TreeText
import Grantd.Install.Enrolled
import Grantd.Service.Forward
import Grantd.Service.Record
import Grantd.Signer.Windows

/-!
# Grants from the host to the service

The host signs the public half of every grant in its table and sends it as JSON.
The service reads the text into types of its own, checks the window once more
and computes the signed bytes again. It takes every grant of a host whose clock
is in range.
-/

namespace Grantd.Service

open Base Install
open JsonText (Tree Branches)
open Signer (GrantPublishRequest ClockInRange AllowedTTL effectiveTTL)

-- ---------------------------------------------------------------------------
-- The text
-- ---------------------------------------------------------------------------

def grantTree (g : Protocol.Grant) : Tree :=
  .object (lit "version") (.scalar (.int g.version.toNat)) (.ofFlat [
    (lit "host_id", .str g.hostID),
    (lit "grant_id", .str g.grantID),
    (lit "ssh_user", .str g.sshUser),
    (lit "created_at", .int g.createdAt.toInt),
    (lit "expires_at", .int g.expiresAt.toInt)])

/-- `GrantPublishRequest.MarshalJSON`, of strings that need no escape. -/
def publishTree (req : GrantPublishRequest) : Tree :=
  .object (lit "grant") (grantTree req.grant) (.ofFlat [
    (lit "signature", .str (Protocol.b64 req.signature))])

/-- `JSON.parse` finds the members of a compact text. -/
def ParsesTrees (parse : JsString → Option Json) : Prop :=
  ∀ v : Tree, v.isPlain = true → parse (ofBytes v.text) = some (jsonParse (v.doc ofBytes))

def servedGrant (g : Protocol.Grant) : Grant where
  version := g.version.toNat
  hostID := ofBytes g.hostID
  grantID := ofBytes g.grantID
  sshUser := ofBytes g.sshUser
  createdAt := g.createdAt.toInt
  expiresAt := g.expiresAt.toInt

/-- The members of the text, from last to first as `JSON.parse` keeps them. -/
def grantBody (g : Protocol.Grant) : Record := (serializeGrant (servedGrant g)).reverse

def publishBody (req : GrantPublishRequest) : Record := [
  (js "signature", .str (ofBytes (Protocol.b64 req.signature))),
  (js "grant", .obj (grantBody req.grant))]

theorem readNumber_doc (z : Int) : readNumber (.integer (z < 0) z.natAbs) = .integer z := by
  simp only [readNumber, decide_eq_true_eq]
  split
  · congr 1
    omega
  · congr 1
    omega

theorem jsonParse_grantTree (g : Protocol.Grant) :
    jsonParse ((grantTree g).doc ofBytes) = .obj (grantBody g) := by
  simp only [grantTree, Branches.ofFlat, Tree.doc, Branches.members, JsonText.Scalar.doc, jsonParse,
    jsonParseMembers, readNumber_doc]
  rfl

theorem jsonParse_publishTree (req : GrantPublishRequest) :
    jsonParse ((publishTree req).doc ofBytes) = .obj (publishBody req) := by
  simp only [publishTree, Branches.ofFlat, Tree.doc, Branches.members, JsonText.Scalar.doc,
    jsonParse, jsonParseMembers, jsonParse_grantTree]
  rfl

-- ---------------------------------------------------------------------------
-- A grant of the host
-- ---------------------------------------------------------------------------

/-- What `PendingPublications` signs, for a row of a clock in range. -/
structure WellMade (g : Protocol.Grant) : Prop where
  version : g.version = 1
  hostID : Protocol.validHostID g.hostID = true
  grantID : Protocol.validGrantID g.grantID = true
  sshUser : Protocol.validateSSHUser g.sshUser = .ok ()
  createdAt : ClockInRange g.createdAt
  window : ∃ ttl, AllowedTTL ttl ∧
    g.expiresAt.toInt = g.createdAt.toInt + (effectiveTTL ttl).toInt

namespace WellMade

theorem bounds (h : WellMade g) : 0 ≤ g.createdAt.toInt ∧ g.createdAt.toInt < 2 ^ 52 ∧
    60 ≤ g.expiresAt.toInt - g.createdAt.toInt ∧
      g.expiresAt.toInt - g.createdAt.toInt ≤ 28800 := by
  obtain ⟨ttl, httl, hexp⟩ := h.window
  obtain ⟨hlow, hhigh⟩ := (Signer.effectiveTTL_range ttl).mpr httl
  have hlits : (60 : Int64).toInt = 60 ∧ (28800 : Int64).toInt = 28800 := by decide
  rw [Int64.le_iff_toInt_le] at hlow hhigh
  rw [hlits.1] at hlow
  rw [hlits.2] at hhigh
  exact ⟨Int64.le_iff_toInt_le.mp h.createdAt.1, h.createdAt.2, by omega, by omega⟩

theorem hostID_fieldChar (h : WellMade g) : g.hostID.all isFieldChar = true :=
  fieldChar_of_matchesID h.hostID (by decide)

theorem grantID_fieldChar (h : WellMade g) : g.grantID.all isFieldChar = true :=
  fieldChar_of_matchesID h.grantID (by decide)

theorem sshUser_fieldChar (h : WellMade g) : g.sshUser.all isFieldChar = true :=
  fieldChar_of_user h.sshUser

theorem valid (h : WellMade g) : (servedGrant g).Valid := by
  obtain ⟨hzero, hmax, hmin, hlong⟩ := h.bounds
  have hhost := Protocol.length_of_matchesID h.hostID
  have hgrant := Protocol.length_of_matchesID h.grantID
  have htags : (lit "h_").length = 2 ∧ (lit "g_").length = 2 := ⟨rfl, rfl⟩
  exact {
    version := by rw [servedGrant, h.version]; rfl
    hostID := (hostIDRe_ofBytes _).trans h.hostID
    hostIDLength := by
      simp only [servedGrant, ofBytes, List.length_map]
      omega
    grantID := (grantIDRe_ofBytes _).trans h.grantID
    grantIDLength := by
      simp only [servedGrant, ofBytes, List.length_map]
      omega
    sshUser := (Nat.le_of_eq (List.length_map _)).trans
      (Protocol.length_of_validateSSHUser h.sshUser)
    createdAt := safeNat hzero (by simp only [servedGrant]; omega)
    expiresAt := safeNat (by simp only [servedGrant]; omega) (by simp only [servedGrant]; omega)
    order := by simp only [servedGrant]; omega
    shortest := by simp only [servedGrant, minGrantTTL]; omega
    longest := by simp only [servedGrant, maxGrantTTL]; omega }

theorem plain (h : WellMade g) (signature : Bytes) :
    (publishTree ⟨g, signature⟩).isPlain = true := by
  have hplain {s : Bytes} (hs : s.all isFieldChar = true) : s.all JsonText.isPlain = true := by
    refine List.all_eq_true.mpr fun c hc => ?_
    have hchar := List.all_eq_true.mp hs c hc
    simp only [isFieldChar, Bool.and_eq_true] at hchar
    exact hchar.1
  have hnames : ([lit "grant", lit "signature", lit "version", lit "host_id", lit "grant_id",
      lit "ssh_user", lit "created_at", lit "expires_at"].all fun s => s.all JsonText.isPlain) =
        true := by
    decide
  simp only [List.all_cons, List.all_nil, Bool.and_eq_true] at hnames
  simp only [publishTree, grantTree, Tree.isPlain, Branches.isPlain, Branches.ofFlat,
    JsonText.Scalar.isPlain, hnames, hplain h.hostID_fieldChar, hplain h.grantID_fieldChar,
    hplain h.sshUser_fieldChar, hplain (b64_fieldChar signature), Bool.and_true]

theorem parseGrant_body (h : WellMade g) :
    parseGrant (some (.obj (grantBody g))) = .ok (servedGrant g) := by
  refine parseGrant_of_get h.valid ?_
  simp only [serializeGrant, List.map_cons, List.map_nil, List.forall_mem_cons]
  exact ⟨rfl, rfl, rfl, rfl, rfl, rfl, by simp⟩

end WellMade

theorem chars_fieldChar {s : Bytes} (h : s.all isFieldChar = true) :
    goString (chars (ofBytes s)) = s ∧ jsString (chars (ofBytes s)) = ofBytes s ∧
      ∀ c ∈ chars (ofBytes s), c.toNat ≠ 0 := by
  have hascii := fieldChar_ascii h
  have hutf16 (c : UInt8) : utf16 c.toNat = [c.toUInt16] := by
    have hbyte := Code.forall_byte (p := fun c => utf16 c.toNat == [c.toUInt16])
      (by decide +kernel) c
    exact beq_iff_eq.mp hbyte
  refine ⟨(goString_chars _).trans (textEncode_ofBytes hascii), jsString_chars ?_, fun c hc => ?_⟩
  · rw [WellFormed, codePoints_ofBytes, List.flatMap_map]
    simp only [hutf16]
    exact List.flatMap_pure_eq_map _ s
  · have hmem : c.toNat ∈ (chars (ofBytes s)).map Char.toNat := List.mem_map_of_mem hc
    rw [toNat_chars, codePoints_ofBytes] at hmem
    obtain ⟨b, hb, hbc⟩ := List.mem_map.mp hmem
    rw [← hbc]
    have hchar := List.all_eq_true.mp h b hb
    intro hzero
    rw [show b = 0 from UInt8.toNat_inj.mp hzero] at hchar
    exact absurd hchar (by decide)

def grantAssignment (g : Protocol.Grant) : Assignment :=
  .grant 1 (chars (ofBytes g.hostID)) (chars (ofBytes g.grantID)) (chars (ofBytes g.sshUser))
    g.createdAt.toInt.toNat g.expiresAt.toInt.toNat

theorem ofNat_toInt {z : Int64} (h : 0 ≤ z.toInt) : Int64.ofNat z.toInt.toNat = z := by
  rw [← Int64.toInt_inj, Int64.toInt_ofNat_of_lt (by have := z.toInt_lt; omega)]
  omega

theorem WellMade.canonical (h : WellMade g) :
    ∃ msg, g.canonical = .ok msg ∧ canonicalGrant (servedGrant g) = .ok msg := by
  obtain ⟨hzero, hmax, hmin, hlong⟩ := h.bounds
  obtain ⟨hhostGo, hhostJs, hhost⟩ := chars_fieldChar h.hostID_fieldChar
  obtain ⟨hgrantGo, hgrantJs, hgrant⟩ := chars_fieldChar h.grantID_fieldChar
  obtain ⟨huserGo, huserJs, huser⟩ := chars_fieldChar h.sshUser_fieldChar
  have hsound : ∀ f ∈ (grantAssignment g).fields, f.2.Sound := by
    simp only [grantAssignment, Assignment.fields, List.forall_mem_cons, Value.Sound]
    exact ⟨by decide, hhost, hgrant, huser, by omega, by omega, by simp⟩
  have hgo := Assignment.go_eq_some.mpr ⟨hsound, rfl⟩
  have hts := Assignment.ts_eq_some.mpr ⟨hsound, rfl⟩
  refine ⟨(grantAssignment g).bytes, ?_, ?_⟩
  · simp only [grantAssignment, Assignment.go, Assignment.message, Option.bind_eq_bind,
      Option.bind_eq_some_iff, Option.pure_def, uint64_eq_some, int64_eq_some, hhostGo, hgrantGo,
      huserGo, Option.some.injEq, toOption_eq_some, ofNat_toInt hzero,
      ofNat_toInt (z := g.expiresAt) (by omega)] at hgo
    obtain ⟨_, ⟨_, ⟨-, rfl⟩, _, ⟨-, rfl⟩, _, ⟨-, rfl⟩, rfl⟩, hcanon⟩ := hgo
    have hversion : UInt64.ofNat 1 = g.version := h.version.symm
    rw [hversion] at hcanon
    exact hcanon
  · have hversion : ((1 : Nat) : Int) = (g.version.toNat : Int) := by rw [h.version]; rfl
    have hcreated : (g.createdAt.toInt.toNat : Int) = g.createdAt.toInt := Int.toNat_of_nonneg hzero
    have hexpires : (g.expiresAt.toInt.toNat : Int) = g.expiresAt.toInt :=
      Int.toNat_of_nonneg (by omega)
    simp only [grantAssignment, Assignment.ts, hversion, hcreated, hexpires, hhostJs, hgrantJs,
      huserJs] at hts
    exact toOption_eq_some.mp hts

-- ---------------------------------------------------------------------------
-- At the object
-- ---------------------------------------------------------------------------

def Verifies (C : Subtle) (S : Signer) : Prop :=
  ∀ msg, verifyEd25519 C S.identity msg (S.sign msg) = true

def HostDO.Registered (d : HostDO) (S : Signer) (id : GoString) : Prop :=
  ∃ row m signature, d.host = some row ∧ Holds row m signature ∧ m.hostID = ofBytes id ∧
    m.identityPublicKey = S.identity

/-- The service takes the request from the host that made it, at any time from
`created_at`, less the skew, to `expires_at`. -/
structure Taken (C : Subtle) (parse : JsString → Option Json) (S : Signer)
    (req : GrantPublishRequest) (body : Record) (grant : Grant) (msg : Bytes) : Prop where
  plain : (publishTree req).isPlain = true
  parsed : parse (ofBytes (publishTree req).text) = some (.obj body)
  accepted : parseGrant (body.get (js "grant")) = .ok grant
  signed : req.grant.canonical = .ok msg ∧ req.signature = S.sign msg
  canonical : canonicalGrant grant = .ok msg
  published : ∀ (d : HostDO) (now : Int), d.Registered S req.grant.hostID →
    req.grant.createdAt.toInt - 300 ≤ now → now < req.grant.expiresAt.toInt →
    (d.grants.get? (ofBytes req.grant.grantID) = none → d.live now < HostDO.maxPublishedGrants) →
    d.publishGrant C now (ofBytes req.grant.grantID) body =
      (.json (.obj [(js "grant_id", .str (ofBytes req.grant.grantID)),
          (js "published", .bool true)]) 201,
        HostDO.putGrant (HostDO.grantRow grant req.signature now) d)

variable {C : Subtle} {S : Signer}

theorem Verifies.lengths (h : Verifies C S) (msg : Bytes) :
    S.identity.length = 32 ∧ (S.sign msg).length = 64 := by
  have hverify := h msg
  simp only [verifyEd25519, Bool.and_eq_true, beq_iff_eq] at hverify
  exact hverify.1

theorem WellMade.checkPublish_eq (hC : Verifies C S) (h : WellMade g)
    (hcanon : canonicalGrant (servedGrant g) = .ok msg) (hid : row.hostID = ofBytes g.hostID)
    (hkey : row.identityPublicKey = b64uEncode S.identity) :
    HostDO.checkPublish C now (ofBytes g.grantID) (publishBody ⟨g, S.sign msg⟩) row = (do
      ensure (now < g.expiresAt.toInt) (errorResponse .grantExpired "grant is already expired")
      ensure (g.createdAt.toInt ≤ now + skewRegistration)
        (errorResponse .badRequest "grant created_at is in the future")
      pure (servedGrant g, S.sign msg)) := by
  obtain ⟨hidentity, hsig⟩ := hC.lengths msg
  have hdecode : b64uDecode row.identityPublicKey = some S.identity := by
    rw [hkey]
    refine b64uDecode_b64uEncode fun hnil => ?_
    rw [hnil] at hidentity
    cases hidentity
  have hbytes : parseSignature (publishBody ⟨g, S.sign msg⟩) = .ok (S.sign msg) := by
    refine bytes_b64uEncode ?_ hsig (by decide)
    rw [b64uEncode_eq]
    rfl
  have hgrant : ((servedGrant g).grantID == ofBytes g.grantID) = true := beq_iff_eq.mpr rfl
  have hhost : ((servedGrant g).hostID == row.hostID) = true := beq_iff_eq.mpr hid.symm
  have hparse : parseGrant ((publishBody ⟨g, S.sign msg⟩).get (js "grant")) = .ok (servedGrant g) :=
    h.parseGrant_body
  have hverify := hC msg
  unfold HostDO.checkPublish
  rw [hparse, hbytes, hdecode]
  simp only [HostDO.caught, HostDO.hidden, Except.mapError, bind, Except.bind, hgrant, hhost,
    hcanon, hverify, ensure]
  rfl

theorem WellMade.checkPublish (hC : Verifies C S) (h : WellMade g)
    (hcanon : canonicalGrant (servedGrant g) = .ok msg) (hid : row.hostID = ofBytes g.hostID)
    (hkey : row.identityPublicKey = b64uEncode S.identity)
    (hcreated : g.createdAt.toInt - 300 ≤ now) (hexpires : now < g.expiresAt.toInt) :
    HostDO.checkPublish C now (ofBytes g.grantID) (publishBody ⟨g, S.sign msg⟩) row =
      .ok (servedGrant g, S.sign msg) := by
  rw [h.checkPublish_eq hC hcanon hid hkey]
  have hskew : g.createdAt.toInt ≤ now + skewRegistration := by
    simp only [skewRegistration]
    omega
  rw [decide_eq_true hexpires, decide_eq_true hskew]
  rfl

theorem WellMade.taken (hparse : ParsesTrees parse) (hC : Verifies C S) (h : WellMade g)
    (hmsg : g.canonical = .ok msg) (hcanon : canonicalGrant (servedGrant g) = .ok msg) :
    Taken C parse S ⟨g, S.sign msg⟩ (publishBody ⟨g, S.sign msg⟩) (servedGrant g) msg where
  plain := h.plain _
  parsed := (hparse _ (h.plain _)).trans (congrArg some (jsonParse_publishTree _))
  accepted := h.parseGrant_body
  signed := ⟨hmsg, rfl⟩
  canonical := hcanon
  published := by
    rintro d now ⟨row, m, signature, hhost, hholds, hid, hidentity⟩ hcreated hexpires hroom
    have hcheck := h.checkPublish hC hcanon (hholds.hostID.trans hid)
      (hholds.identityPublicKey.trans (congrArg b64uEncode hidentity)) hcreated hexpires
    exact HostDO.publishGrant_taken C hhost hcheck hroom

-- ---------------------------------------------------------------------------
-- Every grant the host creates
-- ---------------------------------------------------------------------------

theorem wellMade_publication (hs : (Signer.daemon S).Reachable Signer.Drawn s)
    (hread : s.reads i = some h) (hr : r ∈ s.state.store.pendingPublications now)
    (hclock : ClockInRange r.createdAt) : WellMade (Signer.publication h r) := by
  have hclean := Signer.Clean.reachable hs
  have hrow : r ∈ s.state.store.grants.rows := (List.mem_filter.mp (List.mem_mergeSort.mp hr)).1
  obtain ⟨ttl, hwindow⟩ := (Signer.Dated.reachable hs).rows r hrow
  obtain ⟨hid, huser⟩ := hclean.rows r hrow
  exact {
    version := rfl
    hostID := Protocol.matchesID_deriveID S.crypto (hclean.reads i h hread).1.hostID
    grantID := hid
    sshUser := huser
    createdAt := hclock
    window := ⟨ttl, Signer.createWindow_inRange hclock hwindow⟩ }

/-- `CreateGrant` refuses the windows it is meant to refuse and stores the real
sum, and the service takes every grant that the host then publishes. -/
theorem created_grants_publishable (hparse : ParsesTrees parse) (hC : Verifies C S) :
    (∀ now ttl raw secret store, ClockInRange now →
      (Signer.validOrigin S.origin = true →
        ((∃ e, (S.createGrant now ttl raw secret store).1 = .error (.window e)) ↔
          ¬ AllowedTTL ttl)) ∧
      ∀ r ∈ (S.createGrant now ttl raw secret store).2.grants.rows, r ∉ store.grants.rows →
        AllowedTTL ttl ∧ r.createdAt = now ∧
          r.expiresAt.toInt = now.toInt + (effectiveTTL ttl).toInt) ∧
    ∀ s i h now, (Signer.daemon S).Reachable Signer.Drawn s → s.reads i = some h →
      ((∀ r ∈ s.state.store.pendingPublications now, ClockInRange r.createdAt) →
        ∃ reqs, S.signPublications h (s.state.store.pendingPublications now) = .ok reqs ∧
          reqs.map (·.grant) = (s.state.store.pendingPublications now).map (Signer.publication h)) ∧
      ∀ reqs, S.signPublications h (s.state.store.pendingPublications now) = .ok reqs →
        ∀ req ∈ reqs, ClockInRange req.grant.createdAt →
          ∃ body grant msg, Taken C parse S req body grant msg := by
  refine ⟨fun now ttl raw secret store hnow => ⟨fun horigin => ?_, fun r hr hnew => ?_⟩,
    fun s i h now hs hread => ⟨fun hall => ?_, fun reqs hreqs req hreq hclock => ?_⟩⟩
  · exact Signer.createGrant_window_refused horigin hnow
  · obtain ⟨hcreated, hwindow⟩ := Signer.createGrant_stored hr hnew
    obtain ⟨httl, hexpires⟩ := Signer.createWindow_inRange hnow hwindow
    exact ⟨httl, hcreated, hexpires⟩
  · exact Signer.signPublications_isOk fun r hr =>
      (wellMade_publication hs hread hr (hall r hr)).canonical.imp fun _ hmsg => hmsg.1
  · obtain ⟨r, hr, canon, hcanon, rfl⟩ := Signer.signPublications_mem hreqs hreq
    have hmade := wellMade_publication hs hread hr hclock
    obtain ⟨msg, hmsg, hserved⟩ := hmade.canonical
    cases hcanon.symm.trans hmsg
    exact ⟨_, _, _, hmade.taken hparse hC hmsg hserved⟩

namespace Sample

open Signer.Sample Agent.Sample

def parseTree (s : JsString) : Option Json :=
  (JsonText.readDocument (s.map UInt16.toUInt8)).map fun v => jsonParse (v.doc ofBytes)

theorem parsesTrees : ParsesTrees parseTree := by
  intro v hplain
  have hbytes : (ofBytes v.text).map UInt16.toUInt8 = v.text := by
    rw [ofBytes, List.map_map]
    exact (List.map_congr_left fun c _ => UInt8.toUInt8_toUInt16 c).trans (List.map_id _)
  rw [parseTree, hbytes, JsonText.readDocument_text hplain, Option.map_some]

def webCrypto : Subtle := ⟨Signer.Sample.sha256, fun _ _ _ => true⟩

theorem verifies : Verifies webCrypto sampleHost := by
  intro msg
  have hident : Signer.Sample.identity.length = 32 := by decide +kernel
  have hlens : grantSignature.length = 64 ∧ registrationSignature.length = 64 := by decide +kernel
  have hsign : (sampleHost.sign msg).length = 64 := by
    simp only [sampleHost, host]
    split
    · exact hlens.1
    · exact hlens.2
  have hidentity : sampleHost.identity.length = 32 := hident
  simp [verifyEd25519, hidentity, hsign, webCrypto]

def asked : List Signer.Request := setUp.map .system ++ [.publications 0]

def publication (s : Signer.Daemon) : Option (Signer.Host × GrantPublishRequest) := do
  let h ← s.reads 0
  match sampleHost.signPublications h (s.state.store.pendingPublications 1700000000) with
  | .ok [req] => some (h, req)
  | _ => none

theorem publication_eq_some (h : publication s = some (hst, req)) : s.reads 0 = some hst ∧
    sampleHost.signPublications hst (s.state.store.pendingPublications 1700000000) = .ok [req] := by
  simp only [publication, Option.bind_eq_bind, Option.bind_eq_some_iff] at h
  obtain ⟨host, hread, h⟩ := h
  split at h
  · rename_i hreqs
    cases h
    exact ⟨hread, hreqs⟩
  · cases h

def registeredObject (h : Signer.Host) : HostDO :=
  { HostDO.empty with
    host := some (HostDO.insertHost
      (served (sampleHost.registration h 1700000000 registrationNonce))
      registrationSignature 1700000000) }

end Sample

/-- A grant for half an hour, which the service takes in its first second. -/
theorem created_grants_publishable_sample : ∃ s h req body grant msg,
    (Signer.daemon Agent.Sample.sampleHost).Reachable Signer.Drawn s ∧ s.reads 0 = some h ∧
    Agent.Sample.sampleHost.signPublications h (s.state.store.pendingPublications 1700000000) =
      .ok [req] ∧
    Taken Sample.webCrypto Sample.parseTree Agent.Sample.sampleHost req body grant msg ∧
    ((Sample.registeredObject h).publishGrant Sample.webCrypto 1700000000
      (ofBytes req.grant.grantID) body).1 =
        .json (.obj [(js "grant_id", .str (ofBytes req.grant.grantID)),
          (js "published", .bool true)]) 201 := by
  have hrun : ((Signer.daemon Agent.Sample.sampleHost).exec Signer.Drawn
      ⟨Signer.Sample.initial, fun _ => none, []⟩ Sample.asked).any (fun s =>
        (Sample.publication s).any fun p => p.2.grant.createdAt == 1700000000 &&
          p.2.grant.expiresAt == 1700001800 && p.2.grant.hostID == p.1.hostID) = true := by
    decide +kernel
  obtain ⟨s, hs, hpub⟩ := Option.any_eq_true .. |>.mp hrun
  obtain ⟨⟨h, req⟩, hsome, hfields⟩ := Option.any_eq_true .. |>.mp hpub
  simp only [Bool.and_eq_true, beq_iff_eq] at hfields
  obtain ⟨⟨hcreated, hexpires⟩, hid⟩ := hfields
  obtain ⟨hread, hreqs⟩ := Sample.publication_eq_some hsome
  have hinit : (Signer.daemon Agent.Sample.sampleHost).Init
      ⟨Signer.Sample.initial, fun _ => none, []⟩ :=
    ⟨⟨rfl, fun _ => rfl, fun _ => rfl, rfl⟩, fun _ => rfl, rfl⟩
  have hreach := (Machine.Reachable.of_init hinit).run (.of_exec hs)
  have hclock : ClockInRange req.grant.createdAt := by
    rw [hcreated]
    exact ⟨by decide, by decide⟩
  obtain ⟨body, grant, msg, htaken⟩ := ((created_grants_publishable Sample.parsesTrees
    Sample.verifies).2 s 0 h 1700000000 hreach hread).2 [req] hreqs req List.mem_cons_self hclock
  have hregistered : (Sample.registeredObject h).Registered Agent.Sample.sampleHost
      req.grant.hostID :=
    ⟨_, _, _, rfl, holds_insertHost _ _ _, congrArg ofBytes hid.symm, rfl⟩
  have hroom : (Sample.registeredObject h).live 1700000000 < HostDO.maxPublishedGrants :=
    show 0 < 64 by decide
  refine ⟨s, h, req, body, grant, msg, hreach, hread, hreqs, htaken, ?_⟩
  rw [htaken.published (Sample.registeredObject h) 1700000000 hregistered (by rw [hcreated]; decide)
    (by rw [hexpires]; decide) fun _ => hroom]

end Grantd.Service
