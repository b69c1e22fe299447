import Grantd.Service.Object
import Grantd.Service.Publication

/-!
# The grants an object holds

What one operation can do to the row of a grant: leave it, put a verified grant
in its place, or drop it a day after it expired. The bytes that the service
verifies are those of one grant in Go, so a row under the key of a host is that
of a grant the host has signed.
-/

namespace Grantd.Service

open Base Install

variable (C : Subtle)

-- ---------------------------------------------------------------------------
-- One operation
-- ---------------------------------------------------------------------------

namespace HostDO

theorem get?_putGrant (row : GrantRow) (d : HostDO) (id : JsString) :
    (putGrant row d).grants.get? id = if row.grantID = id then some row else d.grants.get? id := by
  unfold putGrant
  split
  · rename_i grants hins
    exact Table.get?_insert hins id
  · rename_i hins
    rw [Table.get?_update]
    split
    · rename_i hid
      subst hid
      obtain ⟨r, hr⟩ := Option.ne_none_iff_exists'.mp (Table.insert_eq_none.mp hins)
      rw [hr, Option.map_some, replaceRow, if_pos (Table.key_get? hr)]
    · rename_i hid
      cases hr : d.grants.get? id with
      | none => rfl
      | some r =>
        rw [Option.map_some, replaceRow, if_neg fun h => hid (h.symm.trans (Table.key_get? hr))]

inductive Fate (d : HostDO) (op : Operation) (id : JsString) : Prop
  | same (h : (d.perform C op).grants.get? id = d.grants.get? id)
  | dropped (now : Int) (hnow : op.now = some now) (h : (d.perform C op).grants.get? id = none)
      (hold : ∀ row ∈ d.grants.get? id, row.expiresAt < now - grantRetention)
  | put (env : Reading) (body : Record) (host : HostRow) (grant : Grant) (signature : Bytes)
      (hop : op = .request env (.publishGrant id body)) (hhost : d.host = some host)
      (hcheck : checkPublish C env.now id body host = .ok (grant, signature))
      (h : (d.perform C op).grants.get? id = some (grantRow grant signature env.now))

theorem fate (d : HostDO) (op : Operation) (id : JsString) : Fate C d op id := by
  cases op with
  | pong now => exact .same rfl
  | dnsSynced dnsName ip => exact .same rfl
  | alarm now =>
    have hget := Table.get?_delete d.grants (·.expiresAt < now - grantRetention) id
    cases hr : d.grants.get? id with
    | none =>
      rw [hr] at hget
      exact .same (hget.trans hr.symm)
    | some row =>
      by_cases hold : row.expiresAt < now - grantRetention
      · refine .dropped now rfl ?_ ?_
        · rw [hr] at hget
          exact hget.trans (by simp [Option.filter, hold])
        · rintro _ hrow
          cases hr.symm.trans hrow
          exact hold
      · refine .same ?_
        rw [hr] at hget
        exact hget.trans (by simp [Option.filter, hold, hr])
  | request env req =>
    cases req with
    | publicRecord | grantRecord => exact .same rfl
    | register body =>
      exact .same (congrArg (Table.get? · id) (grants_register C env.now body env.dnsName d))
    | rendezvous headers =>
      exact .same (congrArg (Table.get? · id) (grants_rendezvous C env.now headers d))
    | publishGrant grantID body =>
      rcases publishGrant_cases C env.now grantID body d with
        h | ⟨host, grant, signature, hhost, hcheck, -, h⟩
      · exact .same (congrArg (fun d : HostDO => d.grants.get? id) h)
      · have hget : (d.perform C (.request env (.publishGrant grantID body))).grants.get? id =
            if grant.grantID = id then some (grantRow grant signature env.now)
            else d.grants.get? id :=
          (congrArg (fun d : HostDO => d.grants.get? id) h).trans (get?_putGrant _ d id)
        have hid := ((checkPublish_eq_ok C).mp hcheck).2.2.1
        by_cases hsame : grant.grantID = id
        · rw [if_pos hsame] at hget
          have hurl : grantID = id := hid.symm.trans hsame
          subst hurl
          exact .put env body host grant signature rfl hhost hcheck hget
        · rw [if_neg hsame] at hget
          exact .same hget

end HostDO

-- ---------------------------------------------------------------------------
-- Answers
-- ---------------------------------------------------------------------------

def Response.status : Response → Nat
  | .error _ _ status | .json _ status => status
  | .webSocket => 101

theorem statusFor_refuses (code : ErrorCode) : 400 ≤ statusFor code := by
  cases code <;> decide

/-- Whatever goes wrong in `m` is answered with a status of 400 or more. -/
def Refuses (m : Except Response α) : Prop := ∀ r, m = .error r → 400 ≤ r.status

namespace Refuses

theorem pure (a : α) : Refuses (.ok a) := by
  intro r h
  cases h

theorem throw (code : ErrorCode) (message : String) :
    Refuses (α := α) (.error (errorResponse code message)) := by
  intro r h
  cases h
  exact statusFor_refuses code

theorem ensure (b : Bool) (h : 400 ≤ r.status) : Refuses (Base.ensure b r) := by
  intro r' h'
  unfold Base.ensure at h'
  split at h'
  · cases h'
  · cases h'
    exact h

theorem check (b : Bool) (code : ErrorCode) (message : String) :
    Refuses (Base.ensure b (errorResponse code message)) :=
  ensure b (statusFor_refuses code)

theorem bind {m : Except Response α} {f : α → Except Response β} (hm : Refuses m)
    (hf : ∀ a, Refuses (f a)) : Refuses (m >>= f) := by
  intro r h
  cases m with
  | error r' =>
    cases h
    exact hm r rfl
  | ok a => exact hf a r h

theorem caught (m : Except Thrown α) : Refuses (HostDO.caught m) := by
  intro r h
  cases m with
  | ok a => cases h
  | error e =>
    cases e with
    | parse code message =>
      cases h
      exact statusFor_refuses code
    | other =>
      cases h
      decide

theorem hidden (m : Except CanonicalError α) : Refuses (HostDO.hidden m) := caught _

end Refuses

theorem checkPublish_refuses (now : Int) (grantID : JsString) (body : Record) (h : HostRow) :
    Refuses (HostDO.checkPublish C now grantID body h) := by
  refine .bind (.caught _) fun grant => .bind (.caught _) fun signature =>
    .bind (.check _ _ _) fun _ => .bind (.check _ _ _) fun _ => ?_
  split
  · exact .throw _ _
  · exact .bind (.hidden _) fun _ => .bind (.check _ _ _) fun _ => .bind (.check _ _ _) fun _ =>
      .bind (.check _ _ _) fun _ => .pure _

theorem checkRegistration_refuses (now : Int) (body : Record) :
    Refuses (HostDO.checkRegistration C now body) :=
  .bind (.caught _) fun _ => .bind (.caught _) fun _ => .bind (.caught _) fun _ =>
    .bind (.check _ _ _) fun _ => .bind (.check _ _ _) fun _ => .bind (.hidden _) fun _ =>
      .bind (.check _ _ _) fun _ => .pure _

theorem readJson_refuses (req : Request) : Refuses (readJson req) := by
  refine .bind (.ensure _ (by decide)) fun _ => .bind (.ensure _ (by decide)) fun _ => ?_
  split
  · exact .pure _
  · exact .throw _ _

theorem hostRoute_refuses (req : Request) : Refuses (hostRoute req) := by
  have hnone : Refuses (α := JsString × HostRequest) (.error noSuchRoute) := by
    intro r h
    cases h
    decide
  unfold hostRoute
  split
  · refine .bind (.ensure _ (by decide)) fun _ => .bind (.check _ _ _) fun _ => ?_
    split
    · split
      · exact .bind (readJson_refuses req) fun _ => .pure _
      · exact .pure _
      · exact hnone
    · exact .bind (.ensure _ (by decide)) fun _ => .pure _
    · refine .bind (.ensure _ (by decide)) fun _ => .bind (.check _ _ _) fun _ => ?_
      split
      · exact .pure _
      · exact .bind (readJson_refuses req) fun _ => .pure _
      · exact hnone
    · exact hnone
  · exact hnone

namespace HostDO

theorem publishGrant_accepted {grantID : JsString} {d : HostDO}
    (h : (d.publishGrant C now grantID body).1.status < 400) :
    ∃ host grant signature, d.host = some host ∧
      checkPublish C now grantID body host = .ok (grant, signature) ∧
      (d.publishGrant C now grantID body).2 = putGrant (grantRow grant signature now) d := by
  unfold publishGrant at h ⊢
  cases hhost : d.host with
  | none =>
    rw [hhost] at h
    exact absurd (statusFor_refuses .hostNotFound) (Nat.not_le.mpr h)
  | some host =>
    simp only [hhost] at h ⊢
    cases hcheck : checkPublish C now grantID body host with
    | error r =>
      rw [hcheck] at h
      exact absurd (checkPublish_refuses C now grantID body host r hcheck) (Nat.not_le.mpr h)
    | ok p =>
      obtain ⟨grant, signature⟩ := p
      rw [hcheck] at h
      dsimp only at h ⊢
      split at h
      · exact absurd (statusFor_refuses .tooManyGrants) (Nat.not_le.mpr h)
      · rename_i hcap
        rw [if_neg hcap]
        exact ⟨host, grant, signature, rfl, hcheck, rfl⟩

/-- After a registration that is answered with success the object has the key
of the registration. -/
theorem register_accepted {d : HostDO} (h : (d.register C now body dnsName).1.status < 400) :
    ∃ reg signature id, checkRegistration C now body = .ok (reg, signature) ∧
      (d.register C now body dnsName).2.owner = some (id, b64uEncode reg.identityPublicKey) := by
  unfold register at h ⊢
  cases hcheck : checkRegistration C now body with
  | error r =>
    rw [hcheck] at h
    exact absurd (checkRegistration_refuses C now body r hcheck) (Nat.not_le.mpr h)
  | ok p =>
    obtain ⟨reg, signature⟩ := p
    rw [hcheck] at h
    dsimp only at h ⊢
    refine ⟨reg, signature, ?_⟩
    cases hseen : seenNonce reg.nonce now d with
    | mk seen d' =>
      rw [hseen] at h
      cases seen with
      | true => exact absurd (statusFor_refuses .replayedNonce) (Nat.not_le.mpr h)
      | false =>
        dsimp only at h ⊢
        cases hhost : d'.host with
        | none => exact ⟨reg.hostID, rfl, rfl⟩
        | some existing =>
          rw [hhost] at h
          dsimp only at h ⊢
          split at h
          · exact absurd (statusFor_refuses .idMismatch) (Nat.not_le.mpr h)
          · rename_i hsame
            have hkey : existing.identityPublicKey = b64uEncode reg.identityPublicKey := by
              simpa using hsame
            rw [if_neg hsame]
            refine ⟨existing.hostID, rfl, ?_⟩
            simp only [owner, Option.map_some, updateHost, hkey]

end HostDO

-- ---------------------------------------------------------------------------
-- The bytes of a grant, on both sides
-- ---------------------------------------------------------------------------

def Grant.go (m : Grant) : Protocol.Grant where
  version := .ofNat m.version.toNat
  hostID := textEncode m.hostID
  grantID := textEncode m.grantID
  sshUser := textEncode m.sshUser
  createdAt := .ofNat m.createdAt.toNat
  expiresAt := .ofNat m.expiresAt.toNat

theorem parseGrant_valid (h : parseGrant raw = .ok m) : m.Valid := by
  simp only [parseGrant, bind_eq_ok, pure_eq_ok, checkVersion, ensure_eq_ok, beq_iff_eq,
    str_eq_ok, int_eq_ok, decide_eq_true_eq] at h
  obtain ⟨_, -, v, -, hid, ⟨-, hidlen⟩, gid, ⟨-, hgidlen⟩, user, ⟨-, huser⟩, created, ⟨-, hcreated⟩,
    expires, ⟨-, hexpires⟩, _, hversion, _, hre, _, hgre, _, horder, _, hmin, _, hmax, rfl⟩ := h
  exact ⟨hversion, hre, hidlen, hgre, hgidlen, huser, hcreated, hexpires, horder, hmin, hmax⟩

def Grant.assignment (m : Grant) : Assignment :=
  .grant m.version.toNat (chars m.hostID) (chars m.grantID) (chars m.sshUser) m.createdAt.toNat
    m.expiresAt.toNat

theorem Grant.ts_assignment {m : Grant} (hm : m.Valid) (h : canonicalGrant m = .ok message) :
    m.assignment.ts = some message := by
  have hhost := encoded_chars h (js "host_id") m.hostID (by simp [S])
  have hgrant := encoded_chars h (js "grant_id") m.grantID (by simp [S])
  have huser := encoded_chars h (js "ssh_user") m.sshUser (by simp [S])
  have hversion : (m.version.toNat : Int) = m.version := by simp [hm.version, protocolVersion]
  have hcreated : (m.createdAt.toNat : Int) = m.createdAt := Int.toNat_of_nonneg hm.createdAt.2
  have hexpires : (m.expiresAt.toNat : Int) = m.expiresAt := Int.toNat_of_nonneg hm.expiresAt.2
  simp only [assignment, Assignment.ts, hversion, hcreated, hexpires, hhost, hgrant, huser]
  exact toOption_eq_some.mpr h

theorem Grant.go_canonical {m : Grant} (hm : m.Valid) (h : canonicalGrant m = .ok message) :
    m.go.canonical = .ok message := by
  obtain ⟨_, hmessage, hcanon⟩ := canonical_of_ts (ts_assignment hm h)
  simp only [assignment, Assignment.message, Option.bind_eq_bind, Option.bind_eq_some_iff,
    Option.pure_def, uint64_eq_some, int64_eq_some, goString_chars, Option.some.injEq] at hmessage
  obtain ⟨_, ⟨-, rfl⟩, _, ⟨-, rfl⟩, _, ⟨-, rfl⟩, rfl⟩ := hmessage
  exact hcanon

theorem signable_fields {S : Signer} {g : Protocol.Grant} (h : Signer.Signable S (.grant g)) :
    g.hostID.all isFieldChar = true ∧ g.grantID.all isFieldChar = true ∧
      g.sshUser.all isFieldChar = true := by
  cases h with
  | grant hh hid hu =>
    exact ⟨fieldChar_of_matchesID (Protocol.matchesID_deriveID S.crypto hh.hostID) (by decide),
      fieldChar_of_matchesID hid (by decide), fieldChar_of_user hu⟩

theorem toInt_ofNat_safe {z : Int} (h : SafeNat z) : (Int64.ofNat z.toNat).toInt = z := by
  have hsafe : z < 2 ^ 53 := by
    have hsafe := h.1
    simp only [isSafeInteger, maxSafeInteger, Bool.and_eq_true] at hsafe
    have hmax := of_decide_eq_true hsafe.2
    omega
  have hnonneg := h.2
  rw [Int64.toInt_ofNat_of_lt (by omega)]
  omega

/-- A grant that the service reads off the bytes of a host's grant is that
grant. -/
theorem served_of_signed {S : Signer} {m : Grant} {g : Protocol.Grant} (hm : m.Valid)
    (h : canonicalGrant m = .ok message) (hg : g.canonical = .ok message)
    (hs : Signer.Signable S (.grant g)) : m = servedGrant g := by
  have hgo : (Protocol.Message.grant m.go).canonical = .ok message := m.go_canonical hm h
  have hcanon : (Protocol.Message.grant g).canonical = .ok message := hg
  obtain ⟨hhost, hgrant, huser⟩ := signable_fields hs
  have heq := Protocol.Message.eq_of_canonical hcanon hgo
    (Nat.lt_of_le_of_lt hs.grant_size (by decide))
  cases heq
  -- The host writes ASCII, so the texts of the service are those bytes.
  have hversion : ((UInt64.ofNat m.version.toNat).toNat : Int) = m.version := by
    rw [hm.version]
    rfl
  have htext {s : JsString} (hs : (textEncode s).all isFieldChar = true) :
      ofBytes (textEncode s) = s :=
    ofBytes_textEncode (fieldChar_ascii hs)
  simp only [servedGrant, Grant.go, hversion, toInt_ofNat_safe hm.createdAt,
    toInt_ofNat_safe hm.expiresAt, htext hhost, htext hgrant, htext huser]

end Grantd.Service
