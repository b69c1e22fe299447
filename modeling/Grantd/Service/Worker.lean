import Grantd.Base.Machine
import Grantd.Service.HostDO
import Mathlib.Data.Set.Function

/-!
# The service: requests routed to host objects

cloudflare/src/worker.ts sends a request to the HostDO named by the id in its
URL. The service is the machine of all objects, each under its name; a step is
one request, one frame, one DNS answer or one alarm. An object belongs to the
host it is named after as long as whoever comes first is that host.
-/

namespace Grantd.Service

open Base

def maxRequestBytes : Nat := 16384

inductive Method
  | get
  | put
  | post
  deriving DecidableEq, Repr

/-- A request below `/v1/`. `size` is its body's length in bytes and `json`
what `JSON.parse` makes of it. -/
structure Request where
  method : Method
  seg : List JsString
  contentLength : Option Int
  size : Nat
  json : Option Json
  headers : HostDO.ConnectHeaders

inductive HostRequest
  | register (body : Record)
  | publicRecord
  | rendezvous (headers : HostDO.ConnectHeaders)
  | publishGrant (grantID : JsString) (body : Record)
  | grantRecord (grantID : JsString)

def readJson (req : Request) : Except Response Record := do
  ensure (!req.contentLength.any ((maxRequestBytes : Int) < ·))
    (.error .badRequest (js "request body too large") 413)
  ensure (req.size ≤ maxRequestBytes) (.error .badRequest (js "request body too large") 413)
  match req.json with
  | some (.obj body) => pure body
  | _ => throw (errorResponse .badRequest "body must be a JSON object")

def noSuchRoute : Response := .error .badRequest (js "no such route") 404

/-- The host routes of `v1`, up to the one for redemptions. -/
def hostRoute (req : Request) : Except Response (JsString × HostRequest) :=
  match req.seg with
  | hosts :: hostID :: rest => do
    ensure (hosts == js "hosts") noSuchRoute
    ensure (hostIDRe hostID) (errorResponse .badRequest "malformed host_id")
    match rest with
    | [] =>
      match req.method with
      | .put => pure (hostID, .register (← readJson req))
      | .get => pure (hostID, .publicRecord)
      | .post => throw noSuchRoute
    | [last] =>
      ensure (last == js "connect" && req.method == .get) noSuchRoute
      pure (hostID, .rendezvous req.headers)
    | [grants, grantID] =>
      ensure (grants == js "grants") noSuchRoute
      ensure (grantIDRe grantID) (errorResponse .badRequest "malformed grant_id")
      match req.method with
      | .get => pure (hostID, .grantRecord grantID)
      | .put => pure (hostID, .publishGrant grantID (← readJson req))
      | .post => throw noSuchRoute
    | _ => throw noSuchRoute
  | _ => throw noSuchRoute

abbrev Objects := JsString → HostDO

/-- What an object reads beside the request: its clock, its socket and the
answer of the DNS call. -/
structure Reading where
  now : Int
  connected : Bool
  dnsName : Option JsString

variable (C : Subtle)

def fetch (env : Reading) : HostRequest → HostDO → Response × HostDO
  | .register body, d => d.register C env.now body env.dnsName
  | .publicRecord, d => (d.publicRecord env.connected, d)
  | .rendezvous headers, d => d.rendezvous C env.now headers
  | .publishGrant grantID body, d => d.publishGrant C env.now grantID body
  | .grantRecord grantID, d => (d.grantRecord env.connected grantID, d)

def respond (s : Objects) (env : Reading) (req : Request) : Response :=
  match hostRoute req with
  | .error r => r
  | .ok (name, r) => (fetch C env r (s name)).1

inductive Action
  | request (env : Reading) (req : Request)
  | pong (name : JsString) (now : Int)
  | dnsSynced (name dnsName ip : JsString)
  | alarm (name : JsString) (now : Int)

def step (s : Objects) : Action → Objects
  | .request env req =>
    match hostRoute req with
    | .error _ => s
    | .ok (name, r) => Function.update s name (fetch C env r (s name)).2
  | .pong name now => Function.update s name ((s name).touch now)
  | .dnsSynced name dnsName ip => Function.update s name ((s name).dnsSynced dnsName ip)
  | .alarm name now => Function.update s name ((s name).alarm now)

def machine : Machine Objects Action where
  Init s := ∀ name, s name = .empty
  step s a := some (step C s a)

-- ---------------------------------------------------------------------------
-- What a handler does to the host row
-- ---------------------------------------------------------------------------

namespace HostDO

theorem checkRegistration_hostID (h : checkRegistration C now body = .ok (reg, signature)) :
    Service.hostID C reg.identityPublicKey = .ok reg.hostID := by
  simp only [checkRegistration, bind_eq_ok, ensure_eq_ok, pure_eq_ok] at h
  obtain ⟨m, -, _, -, derived, hderived, _, heq, _, -, _, -, _, -, hpair⟩ := h
  cases hpair
  simp only [caught, mapError_eq_ok] at hderived
  rw [hderived, beq_iff_eq.mp heq]

/-- The columns that say whose object it is. No statement updates them. -/
def owner (d : HostDO) : Option (JsString × JsString) :=
  d.host.map fun h => (h.hostID, h.identityPublicKey)

theorem owner_eq_none (d : HostDO) : d.owner = none ↔ d.host = none := by simp [owner]

@[simp] theorem owner_touch (d : HostDO) : (d.touch now).owner = d.owner := by
  simp [owner, touch, Function.comp_def]

@[simp] theorem owner_dnsSynced (d : HostDO) : (d.dnsSynced name ip).owner = d.owner := by
  simp [owner, dnsSynced, Function.comp_def]

@[simp] theorem owner_alarm (d : HostDO) : (d.alarm now).owner = d.owner := rfl

theorem owner_rendezvous (d : HostDO) : (d.rendezvous C now headers).2.owner = d.owner := by
  obtain ⟨nonces, h | h⟩ := rendezvous_cases C now headers d
  · rw [h]
    rfl
  · rw [h, owner_touch]
    rfl

theorem owner_putGrant (d : HostDO) : (putGrant row d).owner = d.owner := by
  unfold putGrant
  split <;> rfl

theorem owner_publishGrant {id : JsString} (d : HostDO) :
    (d.publishGrant C now id body).2.owner = d.owner := by
  rcases publishGrant_cases C now id body d with h | ⟨_, _, _, -, -, -, h⟩
  · rw [h]
  · rw [h, owner_putGrant]

/-- A registration leaves the owner alone, or occupies an object that had
none. -/
theorem owner_register (now : Int) (body : Record) (dnsName : Option JsString) (d : HostDO) :
    (d.register C now body dnsName).2.owner = d.owner ∨
    ∃ reg signature, d.owner = none ∧ checkRegistration C now body = .ok (reg, signature) ∧
      (d.register C now body dnsName).2.owner =
        some (reg.hostID, b64uEncode reg.identityPublicKey) := by
  rcases register_cases C now body dnsName d with
    ⟨nonces, h⟩ | ⟨reg, signature, nonces, hcheck, -, h⟩
  · rw [h]
    exact .inl rfl
  · cases hhost : d.host with
    | none =>
      refine .inr ⟨reg, signature, (owner_eq_none d).mpr hhost, hcheck, ?_⟩
      simp [h, hhost, owner, insertHost]
    | some existing =>
      left
      simp [h, hhost, owner, updateHost]

/-- The only mismatch a registration that passes the checks can meet is with
the key of the row. -/
theorem register_idMismatch {d : HostDO}
    (hcheck : checkRegistration C now body = .ok (reg, signature))
    (h : (d.register C now body dnsName).1.code = some .idMismatch) :
    ∃ id key, d.owner = some (id, key) ∧ key ≠ b64uEncode reg.identityPublicKey := by
  unfold register at h
  simp only [hcheck] at h
  obtain ⟨nonces, hframe⟩ := seenNonce_frame reg.nonce now d
  have hsame : (seenNonce reg.nonce now d).2.host = d.host := by rw [hframe]
  split at h
  · cases h
  · rename_i d' hseen
    rw [hseen] at hsame
    split at h
    · rename_i existing hhost
      rw [hsame] at hhost
      split at h
      · rename_i hne
        exact ⟨existing.hostID, existing.identityPublicKey, by simp [owner, hhost],
          by simpa using hne⟩
      · cases h
    · cases h

end HostDO

-- ---------------------------------------------------------------------------
-- Whose object it is
-- ---------------------------------------------------------------------------

/-- The registration an action brings to an object, if it passes the checks
that `register` makes before it looks at its tables. -/
def registration : Action → Option (JsString × HostRegistration)
  | .request env req =>
    match hostRoute req with
    | .ok (name, .register body) =>
      (HostDO.checkRegistration C env.now body).toOption.map fun p => (name, p.1)
    | _ => none
  | _ => none

/-- A registration that reaches an object without a row is that object's own. -/
def Addressed (s : Objects) (a : Action) : Prop :=
  ∀ p ∈ registration C a, (s p.1).owner = none → p.2.hostID = p.1

def InPlay (keys : Set Bytes) (a : Action) : Prop :=
  ∀ p ∈ registration C a, p.2.identityPublicKey ∈ keys

/-- A step changes the owner of an object only by a registration that finds
none. -/
theorem step_owner (s : Objects) (a : Action) (name : JsString) :
    (step C s a name).owner = (s name).owner ∨
    ∃ reg, registration C a = some (name, reg) ∧ (s name).owner = none ∧
      hostID C reg.identityPublicKey = .ok reg.hostID ∧
      (step C s a name).owner = some (reg.hostID, b64uEncode reg.identityPublicKey) := by
  -- Objects other than the one the action concerns stay as they are.
  have hother {n : JsString} {d : HostDO} (hd : d.owner = (s n).owner) :
      (Function.update s n d name).owner = (s name).owner := by
    by_cases hn : name = n
    · subst hn
      simpa using hd
    · simp [hn]
  cases a with
  | pong n now => exact .inl (hother (HostDO.owner_touch _))
  | dnsSynced n dnsName ip => exact .inl (hother (HostDO.owner_dnsSynced _))
  | alarm n now => exact .inl (hother (HostDO.owner_alarm _))
  | request env req =>
    cases hroute : hostRoute req with
    | error r => simp [step, hroute]
    | ok p =>
      obtain ⟨n, r⟩ := p
      simp only [step, hroute]
      cases r with
      | publicRecord => exact .inl (hother rfl)
      | grantRecord grantID => exact .inl (hother rfl)
      | rendezvous headers => exact .inl (hother (HostDO.owner_rendezvous C _))
      | publishGrant grantID body => exact .inl (hother (HostDO.owner_publishGrant C _))
      | register body =>
        rcases HostDO.owner_register C env.now body env.dnsName (s n) with
          hsame | ⟨reg, signature, hnone, hcheck, howner⟩
        · exact .inl (hother hsame)
        · by_cases hn : name = n
          · subst hn
            refine .inr ⟨reg, ?_, hnone, HostDO.checkRegistration_hostID C hcheck, ?_⟩
            · simp [registration, hroute, hcheck, Except.toOption]
            · simpa [fetch] using howner
          · simp [hn]

/-- An occupied object is occupied by the host it is named after, under one of
the keys in play. -/
def Owned (keys : Set Bytes) (s : Objects) : Prop :=
  ∀ name id key, (s name).owner = some (id, key) →
    id = name ∧ ∃ k ∈ keys, key = b64uEncode k ∧ hostID C k = .ok name

theorem Owned.step (hs : Owned C keys s) (haddr : Addressed C s a) (hkeys : InPlay C keys a) :
    Owned C keys (step C s a) := by
  intro name id key howner
  rcases step_owner C s a name with hsame | ⟨reg, hreg, hnone, hid, hnew⟩
  · exact hs name id key (hsame ▸ howner)
  · rw [hnew] at howner
    cases howner
    have hname : reg.hostID = name := haddr _ hreg hnone
    exact ⟨hname, reg.identityPublicKey, hkeys _ hreg, rfl, hname ▸ hid⟩

theorem Owned.reachable
    (hs : (machine C).Reachable (fun s a => Addressed C s a ∧ InPlay C keys a) s) :
    Owned C keys s := by
  refine hs.invariant ?_ ?_
  · intro s hinit name id key howner
    rw [hinit name] at howner
    cases howner
  · rintro s a t hI ⟨haddr, hkeys⟩ hstep
    cases hstep
    exact hI.step C haddr hkeys

theorem registration_request
    (h : registration C (.request env req) = some (name, reg)) :
    ∃ body signature, hostRoute req = .ok (name, .register body) ∧
      HostDO.checkRegistration C env.now body = .ok (reg, signature) := by
  simp only [registration] at h
  split at h
  · rename_i n body hroute
    cases hcheck : HostDO.checkRegistration C env.now body with
    | error r => simp [hcheck, Except.toOption] at h
    | ok p =>
      obtain ⟨reg', signature⟩ := p
      simp only [hcheck, Except.toOption, Option.map_some, Option.some.injEq, Prod.mk.injEq] at h
      obtain ⟨rfl, rfl⟩ := h
      exact ⟨body, signature, hroute, hcheck⟩
  · cases h

-- ---------------------------------------------------------------------------
-- Two hosts with real keys
-- ---------------------------------------------------------------------------

namespace Sample

def decoded (s : String) : Bytes := (b64uDecode (js s)).getD []

structure Host where
  id : JsString
  key : JsString
  digest : Bytes
  nonce : JsString
  signature : JsString
  hostname : JsString

def alpha : Host where
  id := js "h_7x3sucepdd3tthumkk6oiscecua7ownf"
  key := js "Zr5-Myx6RTMyvZ0Kf32wVfXF7xoGraZtmLOftoEMRzo"
  digest := decoded "_fcqCI8Y9zmejFK85EhEFQH3WaWVqGmA5dmkIqAeXVU"
  nonce := js "AAECAwQFBgcICQoLDA0ODw"
  signature := js
    "QzEHgZjhgwn8UkOB1CYYgkLB_538wEkP71QbrcZsEyO6w7ahCxqWsyTNBMmf2oog4w5SsDhyzRpS7oYpY20KAQ"
  hostname := js "a.example.com"

def beta : Host where
  id := js "h_5ur5quysli5m74tyfxo7qtqbr26ilfbo"
  key := js "C1E62bSSQBXKCQLtB5BE06xdvsIwbwaUjBDajrbjny0"
  digest := decoded "7SPYUxJaOs_yeC3d-E4BjryFlC6_Mo_xKHICpHmWQgc"
  nonce := js "EBESExQVFhcYGRobHB0eHw"
  signature := js
    "9C_JyQe_1sXB_8m7MSbsc1NNCZbPcb0CqFYEDRS-AbiZwvQYC2-kURmCJnCewu-Cn7JfaTS1OOm9u-VHZ3TPDw"
  hostname := js "b.example.com"

def Host.publicKey (h : Host) : Bytes := (b64uDecode h.key).getD []

/-- The digests of the two keys. Each host signs one message, and the
signature is good. -/
def subtle : Subtle where
  sha256 b := if b = alpha.publicKey then alpha.digest else beta.digest
  ed25519Verify _ _ _ := true

def Host.registration (h : Host) : Json := .obj [
  (js "version", .num (.integer 1)),
  (js "host_id", .str h.id),
  (js "identity_public_key", .str h.key),
  (js "ssh_ca_public_key", .str (js
    "ssh-ed25519 AAAAC3NzaC1lZDI1NTE5AAAAIG56HN0psLeP0Tr0xVmP7/TvKpcWbjym8uT7/M2AUFvx")),
  (js "ssh_host_public_key", .str (js
    "ssh-ed25519 AAAAC3NzaC1lZDI1NTE5AAAAIMqTrBcFGHBx1nuDx/8O/oEI6OxFMFdddyaHkzPb2r58")),
  (js "hostname", .str h.hostname),
  (js "ssh_port", .num (.integer 22)),
  (js "ssh_user", .str (js "ubuntu")),
  (js "timestamp", .num (.integer 1700000000)),
  (js "nonce", .str h.nonce)]

def Host.put (h : Host) (name : JsString) : Request where
  method := .put
  seg := [js "hosts", name]
  contentLength := none
  size := 700
  json := some (.obj [(js "registration", h.registration), (js "signature", .str h.signature)])
  headers := ⟨false, none, none, none⟩

def reading : Reading := ⟨1700000000, false, none⟩

def after (req : Request) : Objects := step subtle (fun _ => .empty) (.request reading req)

end Sample

/-- In a run in which whoever first registers at an object is its own host,
every object is its own host's, and a host is never refused at its object for
a mismatch of ids. -/
theorem host_object_own (hinj : Set.InjOn (hostID C) keys)
    (hs : (machine C).Reachable (fun s a => Addressed C s a ∧ InPlay C keys a) s) :
    (∀ name row, (s name).host = some row → row.hostID = name) ∧
    ∀ name env req reg, registration C (.request env req) = some (name, reg) →
      reg.identityPublicKey ∈ keys → hostID C reg.identityPublicKey = .ok name →
      (respond C s env req).code ≠ some .idMismatch := by
  have howned := Owned.reachable C hs
  refine ⟨?_, ?_⟩
  · intro name row hrow
    exact (howned name row.hostID row.identityPublicKey (by simp [HostDO.owner, hrow])).1
  · intro name env req reg hreg hmem hid hrefused
    obtain ⟨body, signature, hroute, hcheck⟩ := registration_request C hreg
    simp only [respond, hroute, fetch] at hrefused
    obtain ⟨id, key, howner, hne⟩ := HostDO.register_idMismatch C hcheck hrefused
    obtain ⟨-, k, hk, rfl, hkid⟩ := howned name id key howner
    have hsame : k = reg.identityPublicKey := hinj hk hmem (hkid.trans hid.symm)
    exact hne (by rw [hsame])

/-- A host registers at its object, and again. -/
theorem host_object_own_alpha :
    (∀ name row, (Sample.after (Sample.alpha.put Sample.alpha.id) name).host = some row →
      row.hostID = name) ∧
    (respond Sample.subtle (Sample.after (Sample.alpha.put Sample.alpha.id)) Sample.reading
      (Sample.alpha.put Sample.alpha.id)).code ≠ some .idMismatch := by
  let a : Action := .request Sample.reading (Sample.alpha.put Sample.alpha.id)
  have hreg : (registration Sample.subtle a).any (fun p => p.1 == Sample.alpha.id &&
      p.2.hostID == p.1 && p.2.identityPublicKey == Sample.alpha.publicKey &&
      hostID Sample.subtle p.2.identityPublicKey = .ok p.1) = true := by
    decide +kernel
  obtain ⟨⟨name, reg⟩, hreg, hp⟩ := Option.any_eq_true .. |>.mp hreg
  simp only [Bool.and_eq_true, beq_iff_eq, decide_eq_true_eq] at hp
  obtain ⟨⟨⟨rfl, hname⟩, hkey⟩, hid⟩ := hp
  have hok : Addressed Sample.subtle (fun _ => .empty) a ∧
      InPlay Sample.subtle {Sample.alpha.publicKey} a := by
    refine ⟨?_, ?_⟩
    · rintro p hp -
      cases hreg.symm.trans hp
      exact hname
    · intro p hp
      cases hreg.symm.trans hp
      exact hkey
  obtain ⟨hrow, hrefuse⟩ := host_object_own Sample.subtle (Set.injOn_singleton ..)
    ((Machine.Reachable.of_init fun _ => rfl).step hok rfl)
  exact ⟨hrow, hrefuse _ _ _ reg hreg hkey hid⟩

/-- The first host registers at the object of the second one, which is then
refused there. -/
theorem host_object_occupied :
    (machine Sample.subtle).Reachable (fun _ _ => True)
      (Sample.after (Sample.alpha.put Sample.beta.id)) ∧
    (∃ row, (Sample.after (Sample.alpha.put Sample.beta.id) Sample.beta.id).host = some row ∧
      row.hostID ≠ Sample.beta.id) ∧
    ∃ reg, registration Sample.subtle (.request Sample.reading (Sample.beta.put Sample.beta.id)) =
        some (Sample.beta.id, reg) ∧
      hostID Sample.subtle reg.identityPublicKey = .ok Sample.beta.id ∧
      (respond Sample.subtle (Sample.after (Sample.alpha.put Sample.beta.id)) Sample.reading
        (Sample.beta.put Sample.beta.id)).code = some .idMismatch := by
  refine ⟨(Machine.Reachable.of_init fun _ => rfl).step trivial rfl, ?_, ?_⟩
  · have hrow : (Sample.after (Sample.alpha.put Sample.beta.id) Sample.beta.id).host.any
        (fun row => row.hostID != Sample.beta.id) = true := by
      decide +kernel
    obtain ⟨row, hrow, hne⟩ := Option.any_eq_true .. |>.mp hrow
    exact ⟨row, hrow, by simpa using hne⟩
  · have hreg : (registration Sample.subtle
        (.request Sample.reading (Sample.beta.put Sample.beta.id))).any (fun p =>
          p.1 == Sample.beta.id && hostID Sample.subtle p.2.identityPublicKey = .ok Sample.beta.id)
        = true := by
      decide +kernel
    obtain ⟨⟨name, reg⟩, hreg, hp⟩ := Option.any_eq_true .. |>.mp hreg
    simp only [Bool.and_eq_true, beq_iff_eq, decide_eq_true_eq] at hp
    obtain ⟨rfl, hid⟩ := hp
    exact ⟨reg, hreg, hid, by decide +kernel⟩

end Grantd.Service
