import Grantd.Service.RoundTrip
import Grantd.Service.Worker

/-!
# One object through its life

The operations of a HostDO one after the other, at readings that never go
back. The cap on published grants is asked of new ids only: an id whose row has
expired is renewed without it. As long as a renewal finds room, the cap holds.
-/

namespace Grantd.Service

open Base

inductive Operation
  | request (env : Reading) (req : HostRequest)
  | pong (now : Int)
  | dnsSynced (dnsName ip : JsString)
  | alarm (now : Int)

def Operation.now : Operation → Option Int
  | .request env _ => some env.now
  | .pong now | .alarm now => some now
  | .dnsSynced .. => none

structure Life where
  object : HostDO
  clock : Int

variable (C : Subtle)

def HostDO.perform (d : HostDO) : Operation → HostDO
  | .request env req => (fetch C env req d).2
  | .pong now => d.touch now
  | .dnsSynced dnsName ip => d.dnsSynced dnsName ip
  | .alarm now => d.alarm now

def lifetime : Machine Life Operation where
  Init s := s.object = .empty
  step s op := some ⟨s.object.perform C op, op.now.getD s.clock⟩

/-- Readings never go back. -/
def Onward (s : Life) (op : Operation) : Prop := ∀ now ∈ op.now, s.clock ≤ now

instance (s : Life) (op : Operation) : Decidable (Onward s op) :=
  inferInstanceAs (Decidable (∀ now ∈ op.now, s.clock ≤ now))

-- ---------------------------------------------------------------------------
-- The cap on published grants
-- ---------------------------------------------------------------------------

namespace HostDO

def live (now : Int) (d : HostDO) : Nat := d.grants.count (now < ·.expiresAt)

theorem live_later (d : HostDO) (h : now ≤ now') : d.live now' ≤ d.live now := by
  refine Table.count_mono fun r hr => ?_
  simp only [decide_eq_true_eq] at hr ⊢
  exact Int.lt_of_le_of_lt h hr

theorem live_congr {d d' : HostDO} (h : d'.grants = d.grants) (now : Int) :
    d'.live now = d.live now := by
  rw [live, h, live]

theorem grants_register (now : Int) (body : Record) (dnsName : Option JsString) (d : HostDO) :
    (d.register C now body dnsName).2.grants = d.grants := by
  rcases register_cases C now body dnsName d with ⟨_, h⟩ | ⟨_, _, _, -, -, h⟩
  · rw [h]
  · rw [h]

theorem grants_rendezvous (now : Int) (headers : ConnectHeaders) (d : HostDO) :
    (d.rendezvous C now headers).2.grants = d.grants := by
  obtain ⟨_, h | h⟩ := rendezvous_cases C now headers d
  · rw [h]
  · rw [h]
    rfl

theorem live_putGrant_renewed {d : HostDO} (hr : d.grants.get? row.grantID = some r)
    (hlive : now < r.expiresAt) : (putGrant row d).live now ≤ d.live now := by
  have htaken : d.grants.insert row = none := Table.insert_eq_none.mpr (by simp [hr])
  simp only [putGrant, htaken]
  refine Table.count_update_le replaceRow_grantID fun r' hr' hnew => ?_
  unfold replaceRow at hnew
  split at hnew
  · rename_i hid
    -- The id has one row, and that is the live one.
    have hsame : some r' = some r := (Table.get?_eq_some.mpr ⟨hr', hid⟩).symm.trans hr
    cases hsame
    exact decide_eq_true hlive
  · exact hnew

theorem live_putGrant_le (row : GrantRow) (d : HostDO) (now : Int) :
    (putGrant row d).live now ≤ d.live now + 1 := by
  unfold putGrant
  split
  · rename_i hins
    exact Table.count_insert_le hins _
  · exact Table.count_update_one replaceRow_grantID (k := row.grantID) (fun r hr => if_neg hr) _

end HostDO

/-- A publication of an id whose row has expired finds room, as one of a new
id has to. -/
def FindsRoom (s : Life) : Operation → Prop
  | .request env (.publishGrant grantID _) => ∀ row ∈ s.object.grants.get? grantID,
      row.expiresAt ≤ env.now → s.object.live env.now < HostDO.maxPublishedGrants
  | _ => True

instance (s : Life) (op : Operation) : Decidable (FindsRoom s op) :=
  match op with
  | .request env (.publishGrant grantID _) =>
    inferInstanceAs (Decidable (∀ row ∈ s.object.grants.get? grantID, row.expiresAt ≤ env.now → _))
  | .request _ (.register _) | .request _ .publicRecord | .request _ (.rendezvous _)
  | .request _ (.grantRecord _) | .pong _ | .dnsSynced .. | .alarm _ =>
    inferInstanceAs (Decidable True)

variable {C}

theorem publish_live {grantID : JsString} {s : Life}
    (hroom : FindsRoom s (.request env (.publishGrant grantID body)))
    (hs : s.object.live env.now ≤ HostDO.maxPublishedGrants) :
    (s.object.publishGrant C env.now grantID body).2.live env.now ≤ HostDO.maxPublishedGrants := by
  rcases HostDO.publishGrant_cases C env.now grantID body s.object with
    h | ⟨row, grant, signature, -, hcheck, hnew, h⟩
  · rw [h]
    exact hs
  · have hid := ((HostDO.checkPublish_eq_ok C).mp hcheck).2.2.1
    rw [h]
    have hadd := HostDO.live_putGrant_le (HostDO.grantRow grant signature env.now) s.object env.now
    cases hrow : s.object.grants.get? grantID with
    | none => exact Nat.le_trans hadd (hnew hrow)
    | some old =>
      by_cases hlive : env.now < old.expiresAt
      · subst hid
        exact Nat.le_trans (HostDO.live_putGrant_renewed hrow hlive) hs
      · exact Nat.le_trans hadd (hroom old hrow (Int.not_lt.mp hlive))

theorem perform_live {s : Life} (hon : Onward s op) (hroom : FindsRoom s op)
    (hs : s.object.live s.clock ≤ HostDO.maxPublishedGrants) :
    (s.object.perform C op).live (op.now.getD s.clock) ≤ HostDO.maxPublishedGrants := by
  have hlater {now : Int} (h : op.now = some now) : s.object.live now ≤ HostDO.maxPublishedGrants :=
    Nat.le_trans (s.object.live_later (hon now h)) hs
  cases op with
  | pong now => exact hlater rfl
  | dnsSynced dnsName ip => exact hs
  | alarm now => exact Nat.le_trans (Table.count_delete_le ..) (hlater rfl)
  | request env req =>
    have hnow := hlater rfl
    cases req with
    | publicRecord | grantRecord => exact hnow
    | publishGrant grantID body => exact publish_live hroom hnow
    | register body =>
      exact Nat.le_trans (Nat.le_of_eq (HostDO.live_congr (HostDO.grants_register ..) _)) hnow
    | rendezvous headers =>
      exact Nat.le_trans (Nat.le_of_eq (HostDO.live_congr (HostDO.grants_rendezvous ..) _)) hnow

/-- In every run in which an expired id is published again only when there is
room, no reading finds more than the cap of unexpired grants. -/
theorem published_grants_capped (C : Subtle)
    (hs : (lifetime C).Reachable (fun s op => Onward s op ∧ FindsRoom s op) s) :
    s.object.live s.clock ≤ HostDO.maxPublishedGrants := by
  refine hs.invariant (I := fun s => s.object.live s.clock ≤ HostDO.maxPublishedGrants) ?_ ?_
  · intro s hinit
    rw [show s.object = .empty from hinit]
    exact Nat.zero_le _
  · rintro s op t hI ⟨hon, hroom⟩ hstep
    cases hstep
    exact perform_live hon hroom hI

-- ---------------------------------------------------------------------------
-- A host that renews
-- ---------------------------------------------------------------------------

namespace Sample

/-- A signature scheme under which the first host can sign. -/
structure Scheme where
  sign : Bytes → Bytes
  verify : Bytes → Bytes → Bytes → Bool
  length_sign : ∀ msg, (sign msg).length = 64
  verifies : ∀ msg, verify alpha.publicKey msg (sign msg) = true

variable (E : Scheme)

def Scheme.subtle : Subtle := ⟨Sample.subtle.sha256, E.verify⟩

theorem Scheme.verifyEd25519 (msg : Bytes) :
    verifyEd25519 E.subtle alpha.publicKey msg (E.sign msg) = true := by
  have hkey : alpha.publicKey.length = 32 := by decide +kernel
  simp [Service.verifyEd25519, hkey, E.length_sign msg, Scheme.subtle, E.verifies msg]

theorem Scheme.parseSignature (msg : Bytes) (o : Record)
    (h : o.get (js "signature") = some (.str (b64uEncode (E.sign msg)))) :
    parseSignature o = .ok (E.sign msg) :=
  bytes_b64uEncode h (E.length_sign msg) (by decide)

-- The registration

def alphaRegistration : HostRegistration where
  version := 1
  hostID := alpha.id
  identityPublicKey := alpha.publicKey
  sshCAPublicKey := js
    "ssh-ed25519 AAAAC3NzaC1lZDI1NTE5AAAAIG56HN0psLeP0Tr0xVmP7/TvKpcWbjym8uT7/M2AUFvx"
  sshHostPublicKey := js
    "ssh-ed25519 AAAAC3NzaC1lZDI1NTE5AAAAIMqTrBcFGHBx1nuDx/8O/oEI6OxFMFdddyaHkzPb2r58"
  hostname := alpha.hostname
  sshPort := 22
  sshUser := js "ubuntu"
  timestamp := 1700000000
  nonce := decoded "AAECAwQFBgcICQoLDA0ODw"

theorem alphaRegistration_valid : alphaRegistration.Valid := by
  constructor <;> decide +kernel

def bytesOk (m : Except CanonicalError Bytes) : Bytes := m.toOption.getD []

theorem bytesOk_eq {m : Except CanonicalError Bytes} (h : m.isOk = true) : m = .ok (bytesOk m) := by
  cases m with
  | error e => cases h
  | ok b => rfl

def registrationBody : Record := [
  (js "registration", .obj (serializeHostRegistration alphaRegistration)),
  (js "signature", .str
    (b64uEncode (E.sign (bytesOk (canonicalHostRegistration alphaRegistration)))))]

theorem checkRegistration_alpha :
    HostDO.checkRegistration E.subtle 1700000000 (registrationBody E) =
    .ok (alphaRegistration, E.sign (bytesOk (canonicalHostRegistration alphaRegistration))) := by
  have hmsg := bytesOk_eq (m := canonicalHostRegistration alphaRegistration) (by decide +kernel)
  have hid : hostID Sample.subtle alphaRegistration.identityPublicKey =
      .ok alphaRegistration.hostID := by
    decide +kernel
  simp only [HostDO.checkRegistration, HostDO.caught, HostDO.hidden, bind_eq_ok, mapError_eq_ok,
    ensure_eq_ok, pure_eq_ok]
  exact ⟨_, parseHostRegistration_serialize alphaRegistration_valid,
    _, E.parseSignature _ _ rfl, _, hid, (), by decide +kernel, (), by decide, _, hmsg,
    (), E.verifyEd25519 _, rfl⟩

def alphaRow : HostRow :=
  HostDO.insertHost alphaRegistration
    (E.sign (bytesOk (canonicalHostRegistration alphaRegistration))) 1700000000

-- The grants

def grantIDFor (i : Nat) : JsString :=
  js "g_" ++ base32Encode (List.replicate 9 0 ++ [UInt8.ofNat i])

def numberOf (id : JsString) : Nat :=
  (id.drop 16).foldl (fun n c => 32 * n + if 0x61 ≤ c then c.toNat - 0x61 else c.toNat - 24) 0

theorem numberOf_grantIDFor : ∀ i < 65, numberOf (grantIDFor i) = i := by decide +kernel

def grantFor (i : Nat) (createdAt expiresAt : Int) : Grant :=
  ⟨1, alpha.id, grantIDFor i, js "ubuntu", createdAt, expiresAt⟩

def brief : Grant := grantFor 0 1700000000 1700000060

/-- Grants for half an hour, once that minute is over. -/
def lasting (i : Nat) : Grant := grantFor i 1700000060 1700001860

def publicationBody (g : Grant) : Record := [
  (js "grant", .obj (serializeGrant g)),
  (js "signature", .str (b64uEncode (E.sign (bytesOk (canonicalGrant g)))))]

def row (now : Int) (g : Grant) : GrantRow :=
  HostDO.grantRow g (E.sign (bytesOk (canonicalGrant g))) now

structure Publishable (now : Int) (g : Grant) : Prop where
  valid : g.Valid
  hostID : g.hostID = alpha.id
  canonical : (canonicalGrant g).isOk = true
  expiresAt : now < g.expiresAt
  createdAt : g.createdAt ≤ now + skewRegistration

theorem grantFor_publishable (hi : i < 65) (hmsg : (canonicalGrant (grantFor i c e)).isOk = true)
    (hc : SafeNat c) (he : SafeNat e) (hmin : minGrantTTL ≤ e - c) (hmax : e - c ≤ maxGrantTTL)
    (hexp : now < e) (hcreated : c ≤ now + skewRegistration) :
    Publishable now (grantFor i c e) := by
  have hid : ∀ i < 65, grantIDRe (grantIDFor i) = true ∧ (grantIDFor i).length ≤ 64 := by
    decide +kernel
  have hhost : hostIDRe alpha.id = true ∧ alpha.id.length ≤ 64 := by decide +kernel
  have huser : (js "ubuntu").length ≤ maxUsernameBytes := by decide
  have horder : c < e := by
    unfold minGrantTTL at hmin
    omega
  exact ⟨⟨rfl, hhost.1, hhost.2, (hid i hi).1, (hid i hi).2, huser, hc, he, horder, hmin, hmax⟩,
    rfl, hmsg, hexp, hcreated⟩

theorem brief_publishable : Publishable 1700000000 brief :=
  grantFor_publishable (by decide) (by decide +kernel) (by decide) (by decide) (by decide)
    (by decide) (by decide) (by decide)

theorem lasting_publishable (hi : i < 65) : Publishable 1700000060 (lasting i) := by
  have hmsg : ∀ i < 65, (canonicalGrant (lasting i)).isOk = true := by decide +kernel
  exact grantFor_publishable hi (hmsg i hi) (by decide) (by decide) (by decide) (by decide)
    (by decide) (by decide)

theorem checkPublish_alpha (hg : Publishable now g) :
    HostDO.checkPublish E.subtle now g.grantID (publicationBody E g) (alphaRow E) =
      .ok (g, E.sign (bytesOk (canonicalGrant g))) := by
  have hkey : b64uDecode (alphaRow E).identityPublicKey = some alpha.publicKey :=
    b64uDecode_b64uEncode (by decide +kernel)
  exact (HostDO.checkPublish_eq_ok E.subtle).mpr ⟨parseGrant_serialize hg.valid,
    E.parseSignature _ _ rfl, rfl, hg.hostID, hg.expiresAt, hg.createdAt, alpha.publicKey, _, hkey,
    bytesOk_eq hg.canonical, E.verifyEd25519 _⟩

theorem publishGrant_alpha {d : HostDO} (hd : d.host = some (alphaRow E)) (hg : Publishable now g)
    (hroom : d.grants.get? g.grantID = none → d.live now < HostDO.maxPublishedGrants) :
    (d.publishGrant E.subtle now g.grantID (publicationBody E g)).2 =
      HostDO.putGrant (row E now g) d := by
  rw [HostDO.publishGrant_taken E.subtle hd (checkPublish_alpha E hg) hroom]
  rfl

-- The run

def publish (now : Int) (g : Grant) : Operation :=
  .request ⟨now, false, none⟩ (.publishGrant g.grantID (publicationBody E g))

/-- The host has registered, its brief grant has expired, and `k` lasting ones
have been published since. -/
structure Filled (k : Nat) (s : Life) : Prop where
  clock : s.clock ≤ 1700000060
  host : s.object.host = some (alphaRow E)
  rows : s.object.grants.rows = row E 1700000000 brief ::
    (List.range k).map fun i => row E 1700000060 (lasting (i + 1))

theorem Filled.live (h : Filled E k s) : s.object.live 1700000060 = k := by
  have hlast : ((List.range k).map fun i => row E 1700000060 (lasting (i + 1))).countP
      (fun r => decide (1700000060 < r.expiresAt)) = k := by
    rw [List.countP_map, List.countP_eq_length.mpr, List.length_range]
    intro i _
    rfl
  rw [HostDO.live, Table.count, h.rows, List.countP_cons, hlast]
  rfl

theorem onward_publish (hclock : s.clock ≤ now) : Onward s (publish E now g) := by
  rintro _ ⟨⟩
  exact hclock

theorem findsRoom_publish {s : Life} (hnew : s.object.grants.get? g.grantID = none) :
    FindsRoom s (publish E now g) := by
  intro r hr
  cases hnew.symm.trans hr

theorem register_alpha : ∃ nonces,
    (HostDO.empty.register E.subtle 1700000000 (registrationBody E) none).2 =
      ⟨some (alphaRow E), .empty, nonces⟩ := by
  simp only [HostDO.register, checkRegistration_alpha]
  exact ⟨_, rfl⟩

theorem filled_zero :
    ∃ s, (lifetime E.subtle).Reachable (fun s op => Onward s op ∧ FindsRoom s op) s ∧
      Filled E 0 s := by
  obtain ⟨nonces, hreg⟩ := register_alpha E
  let registered : Life := ⟨⟨some (alphaRow E), .empty, nonces⟩, 1700000000⟩
  have hreach : (lifetime E.subtle).Reachable (fun s op => Onward s op ∧ FindsRoom s op)
      registered := by
    have hinit : (lifetime E.subtle).Init ⟨.empty, 1700000000⟩ := rfl
    refine (Machine.Reachable.of_init hinit).step
      (l := .request ⟨1700000000, false, none⟩ (.register (registrationBody E))) ?_ ?_
    · refine ⟨?_, trivial⟩
      rintro _ ⟨⟩
      exact Int.le_refl _
    · exact congrArg (fun d => some (Life.mk d 1700000000)) hreg
  have hroom : registered.object.live 1700000000 < HostDO.maxPublishedGrants := Nat.zero_lt_succ 63
  refine ⟨_, hreach.step (l := publish E 1700000000 brief)
    ⟨onward_publish E (Int.le_refl _), findsRoom_publish E rfl⟩
    (congrArg (fun d => some (Life.mk d 1700000000))
      (publishGrant_alpha E rfl brief_publishable fun _ => hroom)), ?_⟩
  exact ⟨(by decide : (1700000000 : Int) ≤ 1700000060), rfl, rfl⟩

theorem Filled.get?_new (h : Filled E k s) (hk : k < 64) :
    s.object.grants.get? (lasting (k + 1)).grantID = none := by
  refine Table.get?_eq_none.mpr fun r hr hid => ?_
  rw [h.rows] at hr
  have hnumber {i : Nat} (hi : i < 65) (hrow : r.grantID = grantIDFor i) : i = k + 1 := by
    rw [← numberOf_grantIDFor i hi, ← hrow, hid]
    exact numberOf_grantIDFor (k + 1) (by omega)
  rcases List.mem_cons.mp hr with rfl | hr
  · exact absurd (hnumber (i := 0) (by decide) rfl) (by omega)
  · obtain ⟨i, hi, rfl⟩ := List.mem_map.mp hr
    have hik := List.mem_range.mp hi
    exact absurd (hnumber (i := i + 1) (by omega) rfl) (by omega)

theorem Filled.publish (h : Filled E k s) (hk : k < 64) :
    Filled E (k + 1) ⟨HostDO.putGrant (row E 1700000060 (lasting (k + 1))) s.object,
      1700000060⟩ := by
  have hins : s.object.grants.insert (row E 1700000060 (lasting (k + 1))) ≠ none :=
    fun hnone => Table.insert_eq_none.mp hnone (h.get?_new E hk)
  obtain ⟨grants, hins⟩ := Option.ne_none_iff_exists'.mp hins
  simp only [HostDO.putGrant, hins]
  refine ⟨Int.le_refl _, h.host, ?_⟩
  rw [(Table.insert_eq_some hins).2, h.rows]
  simp [List.range_succ]

theorem filled (hk : k ≤ 64) :
    ∃ s, (lifetime E.subtle).Reachable (fun s op => Onward s op ∧ FindsRoom s op) s ∧
      Filled E k s := by
  induction k with
  | zero => exact filled_zero E
  | succ k ih =>
    obtain ⟨s, hreach, hs⟩ := ih (by omega)
    have hroom : s.object.live 1700000060 < HostDO.maxPublishedGrants := by
      rw [hs.live E]
      exact hk
    refine ⟨_, hreach.step (l := Sample.publish E 1700000060 (lasting (k + 1)))
      ⟨onward_publish E hs.clock, findsRoom_publish E (hs.get?_new E (by omega))⟩
      (congrArg (fun d => some (Life.mk d 1700000060))
        (publishGrant_alpha E hs.host (lasting_publishable (by omega)) fun _ => hroom)), ?_⟩
    exact hs.publish E (by omega)

theorem Filled.renew (h : Filled E k s) :
    (HostDO.putGrant (row E 1700000060 (lasting 0)) s.object).live 1700000060 = k + 1 := by
  have hold : s.object.grants.get? (lasting 0).grantID = some (row E 1700000000 brief) :=
    Table.get?_eq_some.mpr ⟨by simp [h.rows], rfl⟩
  have htaken : s.object.grants.insert (row E 1700000060 (lasting 0)) = none :=
    Table.insert_eq_none.mpr (by
      intro hnone
      cases hold.symm.trans hnone)
  simp only [HostDO.putGrant, htaken]
  rw [HostDO.live, Table.count, List.countP_eq_length.mpr]
  · simp [Table.update, h.rows]
  · intro r hr
    obtain ⟨r₀, hr₀, rfl⟩ := List.mem_map.mp hr
    unfold HostDO.replaceRow
    split
    · rfl
    · rename_i hother
      rw [h.rows] at hr₀
      rcases List.mem_cons.mp hr₀ with rfl | hr₀
      · exact absurd rfl hother
      · obtain ⟨i, -, rfl⟩ := List.mem_map.mp hr₀
        rfl

theorem Filled.step_renew (h : Filled E k s) :
    (lifetime E.subtle).step s (Sample.publish E 1700000060 (lasting 0)) =
      some ⟨HostDO.putGrant (row E 1700000060 (lasting 0)) s.object, 1700000060⟩ := by
  have hknown : s.object.grants.get? (lasting 0).grantID ≠ none := fun hnone =>
    Table.get?_eq_none.mp hnone (row E 1700000000 brief) (by simp [h.rows]) rfl
  exact congrArg (fun d => some (Life.mk d 1700000060))
    (publishGrant_alpha E h.host (lasting_publishable (by decide))
      fun hnone => absurd hnone hknown)

/-- The Ed25519 signatures of the first host under its registration, its brief
grant and the renewal of that grant. -/
def ed25519 : Scheme where
  sign msg :=
    if msg = bytesOk (canonicalHostRegistration alphaRegistration) then decoded
      "QzEHgZjhgwn8UkOB1CYYgkLB_538wEkP71QbrcZsEyO6w7ahCxqWsyTNBMmf2oog4w5SsDhyzRpS7oYpY20KAQ"
    else if msg = bytesOk (canonicalGrant brief) then decoded
      "-v3grcPjlQB2f66dAfoHH1VpSSEOXOaBKG88PTVGIpR0k4zNwcDk3Xh3teAuw7O1FQ5DL3ZrMmUJagBPYARdBg"
    else decoded
      "VCNnBmuBk-yHi2MUDostR_QAyR24siD_fggkarfmXrIlTX-7ob_Za2TQZwE2Xlj3QU0xNrWLcmeiYajiMvxWCQ"
  verify _ _ _ := true
  length_sign msg := by
    split
    · decide +kernel
    · split <;> decide +kernel
  verifies _ := rfl

end Sample

/-- A grant that has expired is renewed. -/
theorem published_grants_capped_sample : ∃ s,
    (lifetime Sample.ed25519.subtle).Reachable (fun s op => Onward s op ∧ FindsRoom s op) s ∧
    s.object.live s.clock = 1 ∧ s.object.live s.clock ≤ HostDO.maxPublishedGrants := by
  obtain ⟨s, hreach, hs⟩ := Sample.filled_zero Sample.ed25519
  have hroom : s.object.live 1700000060 < HostDO.maxPublishedGrants := by
    rw [hs.live]
    decide
  have hnext := hreach.step
    ⟨Sample.onward_publish Sample.ed25519 hs.clock, fun _ _ _ => hroom⟩
      (hs.step_renew Sample.ed25519)
  exact ⟨_, hnext, hs.renew Sample.ed25519, published_grants_capped _ hnext⟩

/-- Whatever the signatures are, the host that has its brief grant renewed once
64 others are published has one more than the cap. -/
theorem published_grants_exceed_cap : Nonempty Sample.Scheme ∧ ∀ E : Sample.Scheme, ∃ s,
    (lifetime E.subtle).Reachable Onward s ∧
    HostDO.maxPublishedGrants < s.object.live s.clock := by
  refine ⟨⟨Sample.ed25519⟩, fun E => ?_⟩
  obtain ⟨s, hreach, hs⟩ := Sample.filled E (Nat.le_refl 64)
  have hnext := (hreach.mono fun _ _ h => h.1).step (Sample.onward_publish E hs.clock)
    (hs.step_renew E)
  exact ⟨_, hnext, Nat.lt_of_lt_of_eq (Nat.lt_succ_self 64) (hs.renew E).symm⟩

end Grantd.Service
