import Grantd.Service.Dns
import Grantd.Service.Record

/-!
# Who may write a record

The way of a request to a DNS write: the routes of cloudflare/src/worker.ts
that reach `register` and `rendezvous`, with the header that carries the
client's address, and `syncDns`. The name comes from a host id, the address
from the edge and the authority from a signature, and in every state that the
service can reach the three belong together.
-/

namespace Grantd.Service

open Base

-- ---------------------------------------------------------------------------
-- Headers
-- ---------------------------------------------------------------------------

/-- The fields of a request, by their names in lower case. -/
abbrev Headers := JsString → Option JsString

structure ClientRequest where
  method : Method
  seg : List JsString
  contentLength : Option Int
  size : Nat
  json : Option Json
  headers : Headers

/-- What JavaScript makes of header texts. -/
structure HeaderText where
  toLowerCase : JsString → JsString
  number : JsString → JsNumber

def present (v : Option JsString) : Option JsString := v.filter (· != [])

def clientIPHeader : JsString := js "x-grantd-client-ip"
def connectingIP : JsString := js "cf-connecting-ip"

/-- `setClientIp` always sets or deletes. -/
def setClientIP (headers request : Headers) : Headers :=
  Function.update headers clientIPHeader (present (request connectingIP))

/-- The headers of the two requests that are built with an address: fresh ones
for a registration, a copy of the caller's for a rendezvous. -/
def registerHeaders (req : ClientRequest) : Headers :=
  setClientIP (fun n => if n = js "content-type" then some (js "application/json") else none)
    req.headers

def rendezvousHeaders (req : ClientRequest) : Headers := setClientIP req.headers req.headers

def HeaderText.connectHeaders (H : HeaderText) (h : Headers) : HostDO.ConnectHeaders where
  upgrade := (h (js "upgrade")).map H.toLowerCase == some (js "websocket")
  timestamp := (present (h (js "x-grantd-timestamp"))).map H.number
  nonce := present (h (js "x-grantd-nonce"))
  signature := present (h (js "x-grantd-signature"))

def HeaderText.request (H : HeaderText) (req : ClientRequest) : Request where
  method := req.method
  seg := req.seg
  contentLength := req.contentLength
  size := req.size
  json := req.json
  headers := H.connectHeaders (rendezvousHeaders req)

-- ---------------------------------------------------------------------------
-- From a request to a write
-- ---------------------------------------------------------------------------

structure DnsRequest where
  hostID : JsString
  signedHostname : JsString
  ip : Option JsString

variable (C : Subtle)

namespace HostDO

def registerSync (now : Int) (body : Record) (ip : Option JsString) (d : HostDO) :
    Option DnsRequest :=
  match checkRegistration C now body with
  | .error _ => none
  | .ok (reg, _) =>
    match seenNonce reg.nonce now d with
    | (true, _) => none
    | (false, d) =>
      if d.host.any (·.identityPublicKey != b64uEncode reg.identityPublicKey) then none
      else some ⟨reg.hostID, reg.hostname, ip⟩

/-- The `syncDns` of a rendezvous, unless the address is the one of the row. -/
def rendezvousSync (now : Int) (headers : ConnectHeaders) (ip : Option JsString) (d : HostDO) :
    Option DnsRequest :=
  match d.host with
  | none => none
  | some h =>
    match checkConnect C now h headers with
    | .error _ => none
    | .ok nonce =>
      if (seenNonce nonce now d).1 || (present ip).isNone || ip == h.dnsIP then none
      else some ⟨h.hostID, h.hostname, ip⟩

end HostDO

/-- What the API answers to `GET /dns_records?name=…&per_page=100`, by the name
that is asked for, and to the write. -/
structure DnsAnswers where
  listing : JsString → Option (List CfRecord)
  written : Bool

/-- The API's `name` filter: a list has the records of the name in the query
and no others. -/
def DnsAnswers.Filters (a : DnsAnswers) : Prop :=
  ∀ name rs r, a.listing name = some rs → r ∈ rs → r.name = name

def DnsAnswers.calls (a : DnsAnswers) (name ip : JsString) : List DnsCall :=
  match recordTypeFor ip, a.listing name with
  | some type, some existing =>
    writeCall type name ip existing ::
      if a.written then (stale type existing).map fun r => .delete r.id else []
  | _, _ => []

def syncDns (toLowerCase : JsString → JsString) (env : DnsEnv) (a : DnsAnswers) (r : DnsRequest) :
    Option (JsString × List DnsCall) := do
  let cfg ← dnsConfig toLowerCase env
  let ip ← present r.ip
  let name ← hostRecordName r.hostID cfg.suffix
  if toLowerCase (trim r.signedHostname) == name then some (name, a.calls name ip) else none

def dnsWrites (H : HeaderText) (env : DnsEnv) (now : Int) (a : DnsAnswers) (s : Objects)
    (req : ClientRequest) : Option (JsString × List DnsCall) :=
  match hostRoute (H.request req) with
  | .ok (name, .register body) =>
    ((s name).registerSync C now body (registerHeaders req clientIPHeader)).bind
      (syncDns H.toLowerCase env a)
  | .ok (name, .rendezvous headers) =>
    ((s name).rendezvousSync C now headers (rendezvousHeaders req clientIPHeader)).bind
      (syncDns H.toLowerCase env a)
  | _ => none

-- ---------------------------------------------------------------------------
-- Authority
-- ---------------------------------------------------------------------------

/-- The request carries `signature` for `message`, stamped with `ts`. -/
inductive Carries (H : HeaderText) (req : ClientRequest) (message signature : Bytes) (ts : Int) :
    Prop
  | registration (name : JsString) (body : Record) (m : HostRegistration) :
      hostRoute (H.request req) = .ok (name, .register body) →
      parseHostRegistration (body.get (js "registration")) = .ok m →
      canonicalHostRegistration m = .ok message → parseSignature body = .ok signature →
      m.timestamp = ts → Carries H req message signature ts
  | connect (name : JsString) (headers : HostDO.ConnectHeaders) (m : HostConnect) :
      hostRoute (H.request req) = .ok (name, .rendezvous headers) →
      headers.timestamp = some (.integer m.timestamp) →
      headers.nonce.bind b64uDecode = some m.nonce →
      headers.signature.bind b64uDecode = some signature →
      canonicalHostConnect m = .ok message → m.timestamp = ts → Carries H req message signature ts

/-- The id is that of a record of the name, listed under it. -/
def DnsAnswers.Lists (a : DnsAnswers) (name id : JsString) : Prop :=
  ∃ rs r, a.listing name = some rs ∧ r ∈ rs ∧ r.id = id ∧ r.name = name

/-- What a call may do for a name: write an unproxied record of the name with
this content, and replace or delete a listed record of the name. -/
def DnsCall.Allowed (name ip : JsString) (a : DnsAnswers) : DnsCall → Prop
  | .post body => body.name = name ∧ body.content = ip ∧ body.proxied = false
  | .put id body =>
    (body.name = name ∧ body.content = ip ∧ body.proxied = false) ∧ a.Lists name id
  | .delete id => a.Lists name id

/-- The request is one of the host whose label the name begins with. -/
structure Authority (H : HeaderText) (env : DnsEnv) (now : Int) (req : ClientRequest)
    (name : JsString) where
  cfg : DnsConfig
  label : JsString
  key : Bytes
  message : Bytes
  signature : Bytes
  timestamp : Int
  registration : HostRegistration
  registrationSignature : Bytes
  ip : JsString
  configured : dnsConfig H.toLowerCase env = some cfg
  name_eq : name = label ++ js "." ++ cfg.suffix
  carried : Carries H req message signature timestamp
  fresh : withinSkew now timestamp skewRegistration = true
  verified : verifyEd25519 C key message signature = true
  derived : hostID C key = .ok (js "h_" ++ label)
  certified : Certified C registration registrationSignature
  owner : registration.identityPublicKey = key
  hostname : H.toLowerCase (trim registration.hostname) = name
  address : req.headers connectingIP = some ip

-- ---------------------------------------------------------------------------
-- What each function lets through
-- ---------------------------------------------------------------------------

variable {C} {H : HeaderText} {env : DnsEnv} {now : Int} {a : DnsAnswers}

theorem present_eq_some {v : Option JsString} (h : present v = some ip) : v = some ip := by
  simp only [present, Option.filter_eq_some_iff] at h
  exact h.1

theorem DnsAnswers.calls_allowed (ha : a.Filters) (h : call ∈ a.calls name ip) :
    call.Allowed name ip a := by
  unfold DnsAnswers.calls at h
  split at h
  · rename_i type existing _ hlisting
    rcases List.mem_cons.mp h with rfl | h
    · unfold writeCall
      split
      · rename_i mine hmine
        have hmem := List.mem_of_find?_eq_some hmine
        exact ⟨⟨rfl, rfl, rfl⟩, existing, mine, hlisting, hmem, rfl, ha _ _ _ hlisting hmem⟩
      · exact ⟨rfl, rfl, rfl⟩
    · split at h
      · obtain ⟨r, hr, rfl⟩ := List.mem_map.mp h
        have hmem := (List.mem_filter.mp hr).1
        exact ⟨existing, r, hlisting, hmem, rfl, ha _ _ _ hlisting hmem⟩
      · cases h
  · cases h

theorem syncDns_eq_some (h : syncDns toLowerCase env a r = some (name, calls)) :
    ∃ cfg ip, dnsConfig toLowerCase env = some cfg ∧ r.ip = some ip ∧
      hostRecordName r.hostID cfg.suffix = some name ∧ toLowerCase (trim r.signedHostname) = name ∧
      calls = a.calls name ip := by
  simp only [syncDns, bind, Option.bind_eq_some_iff] at h
  obtain ⟨cfg, hcfg, ip, hip, name', hname, h⟩ := h
  split at h
  · rename_i heq
    cases h
    exact ⟨cfg, ip, hcfg, present_eq_some hip, hname, beq_iff_eq.mp heq, rfl⟩
  · cases h

theorem hostRecordName_eq_some {id : JsString} (h : hostRecordName id suffix = some name) :
    ∃ label, id = js "h_" ++ label ∧ name = label ++ js "." ++ suffix := by
  unfold hostRecordName at h
  split at h
  · cases h
  · rename_i hpre
    dsimp only at h
    split at h
    · cases h
      simp only [Bool.not_eq_true', Bool.not_eq_false, List.isPrefixOf_iff_prefix] at hpre
      obtain ⟨label, rfl⟩ := hpre
      exact ⟨label, rfl, by rw [List.drop_left' (by decide)]⟩
    · cases h

theorem HostDO.registerSync_eq_some {d : HostDO} (h : d.registerSync C now body ip = some r) :
    ∃ m signature, checkRegistration C now body = .ok (m, signature) ∧
      r = ⟨m.hostID, m.hostname, ip⟩ := by
  unfold registerSync at h
  split at h
  · cases h
  · rename_i m signature hcheck
    split at h
    · cases h
    · split at h
      · cases h
      · cases h
        exact ⟨m, signature, hcheck, rfl⟩

theorem HostDO.rendezvousSync_eq_some {d : HostDO}
    (h : d.rendezvousSync C now headers ip = some r) :
    ∃ row nonce, d.host = some row ∧ checkConnect C now row headers = .ok nonce ∧
      r = ⟨row.hostID, row.hostname, ip⟩ := by
  unfold rendezvousSync at h
  split at h
  · cases h
  · rename_i row hrow
    split at h
    · cases h
    · rename_i nonce hcheck
      split at h
      · cases h
      · cases h
        exact ⟨row, nonce, hrow, hcheck, rfl⟩

theorem consistent_reachable (hs : (machine C).Reachable ok s) (name : JsString) :
    Consistent C (s name) := by
  refine hs.invariant (I := fun s => ∀ name, Consistent C (s name)) ?_ ?_ name
  · intro s hinit name row hrow
    rw [hinit name] at hrow
    cases hrow
  · intro s act t hs _ hstep name
    cases hstep
    have hupdate {n : JsString} (op : Operation) :
        Consistent C (Function.update s n ((s n).perform C op) name) := by
      by_cases hn : name = n
      · subst hn
        rw [Function.update_self]
        exact (hs name).perform op
      · rw [Function.update_of_ne hn]
        exact hs name
    cases act with
    | pong n now => exact hupdate (.pong now)
    | dnsSynced n dnsName ip => exact hupdate (.dnsSynced dnsName ip)
    | alarm n now => exact hupdate (.alarm now)
    | request env req =>
      cases hroute : hostRoute req with
      | error r =>
        simp only [step, hroute]
        exact hs name
      | ok p =>
        simp only [step, hroute]
        exact hupdate (.request env p.2)

theorem rendezvousHeaders_update (req : ClientRequest) (v : Option JsString) :
    rendezvousHeaders { req with headers := Function.update req.headers clientIPHeader v } =
      rendezvousHeaders req := by
  have hne : connectingIP ≠ clientIPHeader := by decide
  simp only [rendezvousHeaders, setClientIP, Function.update_of_ne hne, Function.update_idem]

theorem registerHeaders_update (req : ClientRequest) (v : Option JsString) :
    registerHeaders { req with headers := Function.update req.headers clientIPHeader v } =
      registerHeaders req := by
  have hne : connectingIP ≠ clientIPHeader := by decide
  simp only [registerHeaders, setClientIP, Function.update_of_ne hne]

theorem clientIP_eq (req : ClientRequest) (headers : Headers) :
    setClientIP headers req.headers clientIPHeader = present (req.headers connectingIP) := by
  rw [setClientIP, Function.update_self]

theorem ne_nil_of_hostID {id : JsString} (h : hostID C key = .ok id) : key ≠ [] := by
  rintro rfl
  simp only [hostID, idMaterial, bind_eq_ok, ensure_eq_ok] at h
  obtain ⟨_, ⟨_, hlen, -⟩, -⟩ := h
  cases hlen

theorem register_authority {d : HostDO}
    (hroute : hostRoute (H.request req) = .ok (object, .register body))
    (hsync : d.registerSync C now body (registerHeaders req clientIPHeader) = some r)
    (h : syncDns H.toLowerCase env a r = some (name, calls)) :
    ∃ A : Authority C H env now req name, calls = a.calls name A.ip := by
  obtain ⟨m, signature, hcheck, rfl⟩ := HostDO.registerSync_eq_some hsync
  obtain ⟨cfg, ip, hcfg, hip, hname, hhost, rfl⟩ := syncDns_eq_some h
  obtain ⟨label, hid, rfl⟩ := hostRecordName_eq_some hname
  obtain ⟨message, hparse, hsig, hmessage, hfresh, hverify⟩ := HostDO.checkRegistration_parts hcheck
  have hderived := HostDO.checkRegistration_hostID C hcheck
  dsimp only at hid hhost hip
  rw [registerHeaders, clientIP_eq] at hip
  exact ⟨{
    cfg, label, message, signature, ip
    key := m.identityPublicKey
    timestamp := m.timestamp
    registration := m
    registrationSignature := signature
    configured := hcfg
    name_eq := rfl
    carried := .registration object body m hroute hparse hmessage hsig rfl
    fresh := hfresh
    verified := hverify
    derived := hid ▸ hderived
    certified := checkRegistration_certified hcheck
    owner := rfl
    hostname := hhost
    address := present_eq_some hip }, rfl⟩

theorem rendezvous_authority {d : HostDO} (hd : Consistent C d)
    (hroute : hostRoute (H.request req) = .ok (object, .rendezvous headers))
    (hsync : d.rendezvousSync C now headers (rendezvousHeaders req clientIPHeader) = some r)
    (h : syncDns H.toLowerCase env a r = some (name, calls)) :
    ∃ A : Authority C H env now req name, calls = a.calls name A.ip := by
  obtain ⟨row, nonce, hrow, hcheck, rfl⟩ := HostDO.rendezvousSync_eq_some hsync
  obtain ⟨cfg, ip, hcfg, hip, hname, hhost, rfl⟩ := syncDns_eq_some h
  obtain ⟨label, hid, rfl⟩ := hostRecordName_eq_some hname
  obtain ⟨m, message, signature, key, hts, rfl, hnonce, hsig, hfresh, hmessage, hkey, hverify⟩ :=
    HostDO.checkConnect_eq_ok hcheck
  obtain ⟨reg, regSignature, hreg, hholds⟩ := hd row hrow
  dsimp only at hid hhost hip
  rw [rendezvousHeaders, clientIP_eq] at hip
  -- The key of the row is the key of the registration it holds.
  have howner : reg.identityPublicKey = key := by
    rw [hholds.identityPublicKey, b64uDecode_b64uEncode (ne_nil_of_hostID hreg.derived)] at hkey
    exact Option.some.inj hkey
  exact ⟨{
    cfg, label, key, message, signature, ip
    timestamp := m.timestamp
    registration := reg
    registrationSignature := regSignature
    configured := hcfg
    name_eq := rfl
    carried := .connect object headers m hroute hts hnonce hsig hmessage rfl
    fresh := hfresh
    verified := hverify
    derived := by rw [← howner, hreg.derived, ← hholds.hostID, hid]
    certified := hreg
    owner := howner
    hostname := by rw [← hholds.hostname, hhost]
    address := present_eq_some hip }, rfl⟩

/-- In every state the service reaches, whatever a request makes it do to the
zone is for the name of the host that signed the request, with the address of
the edge, and touches no record of another name; the address header of the
client has no part in it. -/
theorem dns_write_authority (hs : (machine C).Reachable (fun _ _ => True) s) (ha : a.Filters) :
    (∀ name calls call, dnsWrites C H env now a s req = some (name, calls) → call ∈ calls →
      ∃ A : Authority C H env now req name, call.Allowed name A.ip a) ∧
    ∀ v, dnsWrites C H env now a s
        { req with headers := Function.update req.headers clientIPHeader v } =
      dnsWrites C H env now a s req := by
  constructor
  · intro name calls call h hcall
    unfold dnsWrites at h
    split at h
    · rename_i object body hroute
      obtain ⟨r, hsync, h⟩ := Option.bind_eq_some_iff.mp h
      obtain ⟨A, rfl⟩ := register_authority hroute hsync h
      exact ⟨A, DnsAnswers.calls_allowed ha hcall⟩
    · rename_i object headers hroute
      obtain ⟨r, hsync, h⟩ := Option.bind_eq_some_iff.mp h
      obtain ⟨A, rfl⟩ := rendezvous_authority (consistent_reachable hs object) hroute hsync h
      exact ⟨A, DnsAnswers.calls_allowed ha hcall⟩
    · cases h
  · intro v
    have hrequest : H.request { req with headers := Function.update req.headers clientIPHeader v } =
        H.request req := by
      simp only [HeaderText.request, rendezvousHeaders_update]
    simp only [dnsWrites, hrequest, rendezvousHeaders_update, registerHeaders_update]

namespace Sample

def namedAlpha : Host :=
  { alpha with
    hostname := js "7x3sucepdd3tthumkk6oiscecua7ownf.grantd.example"
    signature := js
      "joMeXPi2kwbCgowR1bKvYK1DcE9kj2YjPxTKMm6UES10iTyfYGX-o0XbTZXXcsiub3SD7xxsDJhJv0h8J3kvAw" }

def headerText : HeaderText := ⟨casing.toLowerCase, fun s => .integer (octet s)⟩

def dnsEnv : DnsEnv := ⟨some zoneToken, some zoneID, some (js "grantd.example")⟩

def clientHeaders (n : JsString) : Option JsString :=
  if n = connectingIP then some (js "203.0.113.7")
  else if n = clientIPHeader then some (js "198.51.100.1")
  else none

def clientPut : ClientRequest where
  method := .put
  seg := [js "hosts", alpha.id]
  contentLength := none
  size := 700
  json := (namedAlpha.put alpha.id).json
  headers := clientHeaders

def zoneRecords : Zone :=
  [⟨js "other", js "A", js "other.grantd.example", js "198.51.100.9", false⟩,
    ⟨js "old", js "AAAA", namedAlpha.hostname, js "2001:db8::1", false⟩]

def zoneAnswers : DnsAnswers := ⟨fun name => some (listed name zoneRecords), true⟩

theorem zoneAnswers_filters : zoneAnswers.Filters := by
  rintro name _ r ⟨⟩ hr
  have hmem := (List.mem_filter.mp (List.mem_of_mem_take hr)).2
  exact beq_iff_eq.mp hmem

end Sample

/-- The new address is written, and the record that goes is the host's own. -/
theorem dns_write_authority_sample :
    ∃ A : Authority Sample.subtle Sample.headerText Sample.dnsEnv 1700000000 Sample.clientPut
        Sample.namedAlpha.hostname,
      (DnsCall.delete (js "old")).Allowed Sample.namedAlpha.hostname A.ip Sample.zoneAnswers := by
  have hwrites : dnsWrites Sample.subtle Sample.headerText Sample.dnsEnv 1700000000
      Sample.zoneAnswers (fun _ => .empty) Sample.clientPut = some (Sample.namedAlpha.hostname,
        [.post (recordBody .a Sample.namedAlpha.hostname (js "203.0.113.7")),
          .delete (js "old")]) := by
    decide +kernel
  have hreach : (machine Sample.subtle).Reachable (fun _ _ => True) fun _ => .empty :=
    .of_init fun _ => rfl
  exact (dns_write_authority hreach Sample.zoneAnswers_filters).1 _ _ _ hwrites
    (List.mem_cons_of_mem _ List.mem_cons_self)

end Grantd.Service
