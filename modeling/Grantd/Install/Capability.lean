import Grantd.Agent.Capability
import Grantd.Install.Enrolled

/-!
# Two readers of one capability URL

`CreateGrant` takes any origin that begins with a scheme and puts it in front
of the path. install/redeem.mjs takes the URL apart by a pattern of its own,
the Go client by net/url. Both find what was put in when the origin is a scheme
and an authority of plain characters.
-/

namespace Grantd.Install

open Base Protocol
open Service (JsString ofBytes js)

-- ---------------------------------------------------------------------------
-- parseCapabilityURL
-- ---------------------------------------------------------------------------

def secretBytes : Nat := 32

structure NodeCapability where
  origin : JsString
  hostId : JsString
  grantId : JsString
  secret : Bytes
  deriving DecidableEq, Repr

/-- The class `[A-Za-z0-9.:-]`. -/
def isOriginChar (c : UInt16) : Bool :=
  (0x41 ≤ c && c ≤ 0x5A) || (0x61 ≤ c && c ≤ 0x7A) || (0x30 ≤ c && c ≤ 0x39) ||
    c == 0x2E || c == 0x3A || c == 0x2D

/-- The pattern `^https?:\/\/[A-Za-z0-9.:-]+$`. -/
def originRe (s : JsString) : Bool :=
  let matchesBehind (scheme : JsString) : Bool :=
    scheme.isPrefixOf s && s.drop scheme.length != [] && (s.drop scheme.length).all isOriginChar
  matchesBehind (js "https://") || matchesBehind (js "http://")

/-- The pattern `^(https?:\/\/[^/]+)\/g\/([^/]+)\/([^/]+)$` with its groups. None
of them holds a slash, so the slashes of a match are those of the pattern. -/
def matchPath (path : JsString) : Option (JsString × JsString × JsString) :=
  match path.splitOn 0x2F with
  | [scheme, empty, host, g, hostId, grantId] =>
    if (scheme == js "https:" || scheme == js "http:") && empty == [] && host != [] &&
        g == js "g" && hostId != [] && grantId != [] then
      some (scheme ++ js "//" ++ host, hostId, grantId)
    else none
  | _ => none

def Node.parseCapabilityURL (N : Node) (raw : JsString) : Except Failure NodeCapability := do
  ensure (raw.contains 0x23)
    (refuse "the URL has no '#' fragment, so it carries no capability secret")
  let secret := N.base64url ((raw.dropWhile (· != 0x23)).drop 1)
  ensure (secret.length == secretBytes) (refuse "the capability secret is not 32 bytes")
  match matchPath (raw.takeWhile (· != 0x23)) with
  | none => throw (refuse "the URL path must be /g/<host_id>/<grant_id>")
  | some (origin, hostId, grantId) => do
    ensure (originRe origin) (refuse "malformed origin in the URL")
    ensure (Service.hostIDRe hostId) (refuse "malformed host id in the URL")
    ensure (Service.grantIDRe grantId) (refuse "malformed grant id in the URL")
    pure ⟨origin, hostId, grantId, secret⟩

theorem originRe_of_parse {N : Node} (h : N.parseCapabilityURL raw = .ok cap) :
    originRe cap.origin = true := by
  simp only [Node.parseCapabilityURL, bind_eq_ok] at h
  obtain ⟨-, -, -, -, h⟩ := h
  split at h
  · cases h
  · simp only [bind_eq_ok, ensure_eq_ok, pure_eq_ok] at h
    obtain ⟨-, horigin, -, -, -, -, rfl⟩ := h
    exact horigin

-- ---------------------------------------------------------------------------
-- Origins
-- ---------------------------------------------------------------------------

def Named (origin scheme authority : GoString) : Prop :=
  (scheme = lit "https" ∨ scheme = lit "http") ∧ authority ≠ [] ∧
    authority.all Url.isNameChar = true ∧ origin = scheme ++ lit "://" ++ authority

/-- The origins both clients read back: no path and no slash at the end, no
character that a URL would escape, and only digits behind the last colon. -/
def PlainOrigin (origin : GoString) : Prop :=
  ∃ scheme authority, Named origin scheme authority ∧ Url.portOk authority = true

theorem name_of_originChars {s : JsString} (h : s.all isOriginChar = true) :
    ∃ b : Bytes, s = ofBytes b ∧ b.all Url.isNameChar = true := by
  have hlt : ∀ c ∈ s, c < 0x100 := by
    intro c hmem
    have hc := List.all_eq_true.mp h c hmem
    simp only [isOriginChar, Bool.or_eq_true, Bool.and_eq_true, decide_eq_true_eq, beq_iff_eq,
      UInt16.le_iff_toNat_le, UInt16.lt_iff_toNat_lt, ← UInt16.toNat_inj,
        UInt16.reduceToNat] at hc ⊢
    omega
  obtain ⟨b, rfl⟩ := Service.exists_ofBytes hlt
  refine ⟨b, rfl, ?_⟩
  rwa [Service.all_ofBytes (p := Url.isNameChar) (by decide +kernel)] at h

theorem named_of_originRe {s : JsString} (h : originRe s = true) :
    ∃ origin scheme authority, s = ofBytes origin ∧ Named origin scheme authority := by
  have hread (scheme : GoString) (hs : scheme = lit "https" ∨ scheme = lit "http")
      (h : ((ofBytes (scheme ++ lit "://")).isPrefixOf s = true ∧
        s.drop (ofBytes (scheme ++ lit "://")).length ≠ []) ∧
        (s.drop (ofBytes (scheme ++ lit "://")).length).all isOriginChar = true) :
      ∃ origin scheme authority, s = ofBytes origin ∧ Named origin scheme authority := by
    obtain ⟨⟨hpre, hne⟩, hall⟩ := h
    obtain ⟨rest, rfl⟩ := List.isPrefixOf_iff_prefix.mp hpre
    rw [List.drop_left] at hne hall
    obtain ⟨authority, rfl, hname⟩ := name_of_originChars hall
    refine ⟨_, scheme, authority, List.map_append.symm, hs, ?_, hname, rfl⟩
    rintro rfl
    exact hne rfl
  have hscheme : js "https://" = ofBytes (lit "https" ++ lit "://") ∧
      js "http://" = ofBytes (lit "http" ++ lit "://") := by decide
  simp only [originRe, hscheme, Bool.or_eq_true, Bool.and_eq_true, bne_iff_ne] at h
  rcases h with h | h
  · exact hread _ (.inl rfl) h
  · exact hread _ (.inr rfl) h

theorem originRe_of_named (h : Named origin scheme authority) :
    originRe (ofBytes origin) = true := by
  obtain ⟨hs, hne, hall, rfl⟩ := h
  have hname : (ofBytes authority).all isOriginChar = true := by
    rwa [Service.all_ofBytes (p := Url.isNameChar) (by decide +kernel)]
  have hne' : (ofBytes authority != []) = true := by
    refine bne_iff_ne.mpr fun hnil => hne ?_
    exact List.map_eq_nil_iff.mp hnil
  have hscheme : js "https://" = ofBytes (lit "https" ++ lit "://") ∧
      js "http://" = ofBytes (lit "http" ++ lit "://") := by decide
  have happ (a b : Bytes) : ofBytes (a ++ b) = ofBytes a ++ ofBytes b := List.map_append
  have hpre (a b : JsString) : a.isPrefixOf (a ++ b) = true :=
    List.isPrefixOf_iff_prefix.mpr (List.prefix_append a b)
  rcases hs with rfl | rfl
  · rw [happ, ← hscheme.1]
    simp only [originRe, hpre, List.drop_left, hne', hname, Bool.and_self, Bool.true_or]
  · rw [happ, ← hscheme.2]
    simp only [originRe, hpre, List.drop_left, hne', hname, Bool.and_self, Bool.or_true]

-- ---------------------------------------------------------------------------
-- Read back
-- ---------------------------------------------------------------------------

variable {origin scheme authority hostID grantID : GoString}

theorem notMem_ofBytes {c : UInt8} {s : Bytes} (h : c ∉ s) : c.toUInt16 ∉ ofBytes s := by
  intro hmem
  obtain ⟨x, hx, heq⟩ := List.mem_map.mp hmem
  exact h (Service.toUInt16_inj heq ▸ hx)

theorem matchPath_named (h : Named origin scheme authority) (hh : validHostID hostID = true)
    (hg : validGrantID grantID = true) :
    matchPath (ofBytes (Url.plainText scheme authority (Agent.capabilityPath hostID grantID))) =
      some (ofBytes origin, ofBytes hostID, ofBytes grantID) := by
  obtain ⟨hs, hne, hname, rfl⟩ := h
  have hparts : (ofBytes (Url.plainText scheme authority (Agent.capabilityPath hostID grantID))) =
      [0x2F].intercalate [ofBytes scheme ++ [0x3A], [], ofBytes authority, js "g", ofBytes hostID,
        ofBytes grantID] := by
    simp [Url.plainText, Agent.capabilityPath, List.intercalate, ofBytes, js]
  have hscheme : 0x2F ∉ ofBytes scheme ++ [0x3A] ∧
      (ofBytes scheme ++ [0x3A] == js "https:" || ofBytes scheme ++ [0x3A] == js "http:") =
        true := by
    rcases hs with rfl | rfl <;> decide
  have hauthority : (0x2F : UInt8) ∉ authority := Url.notMem_of_all hname (by decide)
  obtain ⟨hhost, hgrant⟩ := Agent.plain_ids hh hg
  have hsplit : (ofBytes (Url.plainText scheme authority
      (Agent.capabilityPath hostID grantID))).splitOn 0x2F = [ofBytes scheme ++ [0x3A], [],
        ofBytes authority, js "g", ofBytes hostID, ofBytes grantID] := by
    rw [hparts]
    refine List.splitOn_intercalate _ ?_ (by simp)
    simp only [List.mem_cons, List.not_mem_nil, or_false, forall_eq_or_imp, forall_eq]
    exact ⟨hscheme.1, by simp, notMem_ofBytes hauthority, by decide,
      notMem_ofBytes (Agent.slash_notMem hhost), notMem_ofBytes (Agent.slash_notMem hgrant)⟩
  have hnil {b : Bytes} (hb : b ≠ []) : (ofBytes b != []) = true :=
    bne_iff_ne.mpr fun h => hb (List.map_eq_nil_iff.mp h)
  have hid {tag s : GoString} {n : Nat} (hs : matchesID tag (n + 1) s = true) : s ≠ [] := by
    rintro rfl
    have hlen := length_of_matchesID hs
    rw [List.length_nil] at hlen
    omega
  have hg' : (js "g" == js "g") = true := by decide
  have horigin : ofBytes scheme ++ [0x3A] ++ js "//" ++ ofBytes authority =
      ofBytes (scheme ++ lit "://" ++ authority) := by
    have hsep : ofBytes (lit "://") = [0x3A] ++ js "//" := by decide
    simp only [ofBytes, List.map_append, List.append_assoc] at hsep ⊢
    rw [hsep, List.append_assoc]
  rw [matchPath, hsplit]
  simp only [hscheme.2, hnil hne, hnil (hid hh), hnil (hid hg), hg', BEq.rfl, Bool.and_self,
    if_true, horigin]

theorem Node.parseCapabilityURL_named (N : Node) (h : Named origin scheme authority)
    (hh : validHostID hostID = true) (hg : validGrantID grantID = true)
    (hsecret : secret.length = secretLen) :
    N.parseCapabilityURL (ofBytes (capabilityURL origin hostID grantID secret)) =
      .ok ⟨ofBytes origin, ofBytes hostID, ofBytes grantID, secret⟩ := by
  have hmatch := matchPath_named h hh hg
  have horigin := originRe_of_named h
  obtain ⟨hs, -, hname, rfl⟩ := h
  have hlower : scheme.all Url.isLower = true := by
    rcases hs with rfl | rfl <;> decide
  have hplain : (0x23 : UInt8) ∉ Url.plainText scheme authority
      (Agent.capabilityPath hostID grantID) :=
    Url.notMem_plainText hlower hname (Agent.plain_capabilityPath hh hg) (by decide)
  have hhash : (0x23 : UInt16) ∉
      ofBytes (Url.plainText scheme authority (Agent.capabilityPath hostID grantID)) :=
    notMem_ofBytes hplain
  have htext : ofBytes (capabilityURL (scheme ++ lit "://" ++ authority) hostID grantID secret) =
      ofBytes (Url.plainText scheme authority (Agent.capabilityPath hostID grantID)) ++
        0x23 :: ofBytes (b64 secret) := by
    rw [Agent.capabilityURL_eq]
    exact List.map_append
  have hcontains : (ofBytes
    (Url.plainText scheme authority (Agent.capabilityPath hostID grantID)) ++
      0x23 :: ofBytes (b64 secret)).contains 0x23 = true := by simp
  have hlen : (secret.length == secretBytes) = true := beq_iff_eq.mpr hsecret
  rw [Node.parseCapabilityURL, htext, Url.takeWhile_ne hhash, Url.dropWhile_ne hhash]
  simp only [hcontains, List.drop_one, List.tail_cons, N.base64url_b64, hlen, hmatch, horigin,
    Service.hostIDRe_ofBytes, Service.grantIDRe_ofBytes, hh, hg]
  rfl

theorem capabilityURL_of_createGrant {S : Signer} {s : Signer.Store}
    (h : (S.createGrant now ttlSeconds raw draw s).1 = .ok g) :
    ∃ host, s.host = some host ∧
      g.capabilityURL = capabilityURL S.origin host.hostID g.grantID draw := by
  unfold Signer.createGrant at h
  split at h
  · cases h
  · split at h
    · cases h
    · rename_i host hhost
      split at h
      · cases h
      · split at h
        · cases h
        · simp only [Signer.newGrant, bind_eq_ok, pure_eq_ok] at h
          obtain ⟨_, -, rfl⟩ := h
          exact ⟨host, hhost, rfl⟩

theorem lt_of_mem_plainText (path : GoString) (h : Named origin scheme authority)
    (hp : path.all Url.isPathChar = true) :
    ∀ c ∈ Url.plainText scheme authority path, c < 0x80 := by
  intro c hc
  have hs : scheme.all Url.isLower = true := by
    rcases h.1 with rfl | rfl <;> decide
  refine Decidable.byContradiction fun hge => ?_
  have hother := Code.forall_byte (p := fun c => decide (c < 0x80) ||
    !Url.isLower c && !Url.isNameChar c && !Url.isPathChar c) (by decide +kernel) c
  simp only [decide_eq_false hge, Bool.false_or, Bool.and_eq_true, Bool.not_eq_eq_eq_not,
    Bool.not_true] at hother
  exact Url.notMem_plainText hs h.2.2.1 hp ⟨hother.1.1, hother.1.2, hother.2⟩ hc

theorem Named.ascii (h : Named origin scheme authority) : ∀ c ∈ origin, c < 0x80 := by
  intro c hc
  refine lt_of_mem_plainText [] h rfl c ?_
  have hsep : lit "://" = [0x3A, 0x2F, 0x2F] := by decide
  simp only [h.2.2.2, hsep, Url.plainText, List.mem_append, List.mem_cons, List.not_mem_nil] at hc ⊢
  tauto

theorem Named.url_ascii (h : Named origin scheme authority) (hh : validHostID hostID = true)
    (hg : validGrantID grantID = true) (secret : Bytes) :
    ∀ c ∈ capabilityURL origin hostID grantID secret, c < 0x80 := by
  intro c hc
  rw [h.2.2.2, Agent.capabilityURL_eq, List.mem_append, List.mem_cons] at hc
  rcases hc with hc | rfl | hc
  · exact lt_of_mem_plainText _ h (Agent.plain_capabilityPath hh hg) c hc
  · decide
  · exact Service.b64_ascii secret c hc

/-- Every origin `CreateGrant` works with is put in front of the path as it is;
both clients read such a URL back exactly when the origin is a plain one. -/
theorem minted_url_redeemed_iff (N : Node) {S : Signer} {s : Signer.Store}
    (hmint : (S.createGrant now ttlSeconds raw draw s).1 = .ok g) :
    (∃ host, s.host = some host ∧
      g.capabilityURL = capabilityURL S.origin host.hostID g.grantID draw) ∧
    ∀ (hostID grantID : GoString) (secret : Bytes), validHostID hostID = true →
      validGrantID grantID = true → secret.length = secretLen →
      ((N.parseCapabilityURL (N.utf8 (capabilityURL S.origin hostID grantID secret)) =
          .ok ⟨N.utf8 S.origin, ofBytes hostID, ofBytes grantID, secret⟩ ∧
        Agent.parseCapabilityURL (capabilityURL S.origin hostID grantID secret) =
          .ok ⟨S.origin, hostID, grantID, secret⟩) ↔ PlainOrigin S.origin) := by
  refine ⟨capabilityURL_of_createGrant hmint, fun hostID grantID secret hh hg hsecret => ?_⟩
  constructor
  · rintro ⟨hnode, hgo⟩
    obtain ⟨origin, scheme, authority, hutf8, hnamed⟩ :=
      named_of_originRe (originRe_of_parse hnode)
    have horigin : S.origin = origin := (N.utf8_eq hnamed.ascii).mp hutf8
    rw [horigin, hnamed.2.2.2, Agent.parseCapabilityURL_plain hnamed.1 hnamed.2.2.1 hh hg hsecret]
      at hgo
    refine ⟨scheme, authority, horigin ▸ hnamed, ?_⟩
    by_contra hport
    rw [if_neg hport] at hgo
    cases hgo
  · rintro ⟨scheme, authority, hnamed, hport⟩
    have hgo := Agent.parseCapabilityURL_plain hnamed.1 hnamed.2.2.1 hh hg hsecret
    rw [if_pos hport, ← hnamed.2.2.2] at hgo
    refine ⟨?_, hgo⟩
    rw [(N.utf8_eq hnamed.ascii).mpr rfl, (N.utf8_eq (hnamed.url_ascii hh hg secret)).mpr rfl]
    exact N.parseCapabilityURL_named hnamed hh hg hsecret

namespace Sample

open Signer.Sample

def minter (origin : GoString) : Signer := { sample with origin }

def enrolled (origin : GoString) : Signer.Store :=
  ((minter origin).enroll 1700000000 user (lit "host.example") 22 (publicSSHLine hostKey) .empty).2

def minted (origin : GoString) : Except Signer.CreateError Signer.NewGrant :=
  ((minter origin).createGrant 1700000000 1800 (List.replicate 10 0) secret (enrolled origin)).1

end Sample

/-- An origin with a port is read back by both. -/
theorem minted_url_redeemed_sample :
    (Sample.minted (lit "https://grantd.example:8443")).toOption.isSome = true ∧
    Sample.node.parseCapabilityURL (Sample.node.utf8 (capabilityURL
        (lit "https://grantd.example:8443") Signer.Sample.hostID Signer.Sample.grantID
        Signer.Sample.secret)) =
      .ok ⟨Sample.node.utf8 (lit "https://grantd.example:8443"), ofBytes Signer.Sample.hostID,
        ofBytes Signer.Sample.grantID, Signer.Sample.secret⟩ := by
  have hsome : (Sample.minted (lit "https://grantd.example:8443")).toOption.isSome = true := by
    decide +kernel
  obtain ⟨g, hg⟩ := Option.isSome_iff_exists.mp hsome
  have hmint : Sample.minted (lit "https://grantd.example:8443") = .ok g := toOption_eq_some.mp hg
  refine ⟨hsome, (((minted_url_redeemed_iff Sample.node hmint).2 _ _ _ (by decide) (by decide)
    (by decide)).mpr ?_).1⟩
  exact ⟨lit "https", lit "grantd.example:8443",
    ⟨.inl rfl, by decide, by decide, by decide⟩, by decide⟩

/-- With a slash at the end of the origin the Node client refuses the URL, and
the Go client returns another origin. -/
theorem minted_url_slash_refused :
    ((Sample.minted (lit "https://grantd.example/")).toOption.any fun g =>
      Sample.node.parseCapabilityURL (Sample.node.utf8 g.capabilityURL) =
          .error (refuse "the URL path must be /g/<host_id>/<grant_id>") ∧
        Agent.parseCapabilityURL g.capabilityURL =
          .ok ⟨lit "https://grantd.example", Signer.Sample.hostID, Signer.Sample.grantID,
            Signer.Sample.secret⟩) = true := by
  decide +kernel

end Grantd.Install
