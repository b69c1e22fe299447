import Grantd.Signer.Records
import Grantd.Signer.System

/-!
# What the identity key signs

The daemon may be anyone's: it sends its requests in any order, with any path
it likes, between the owner's operations. The signer writes every message that
its identity key signs from its own tables, and the encoder keeps the path that
the daemon chose inside its field. So nothing the key signs can be taken for a
message the signer did not mean.
-/

namespace Grantd.Signer

open Base Protocol Canonical

variable (S : Signer)

-- ---------------------------------------------------------------------------
-- The bytes that go to the key
-- ---------------------------------------------------------------------------

def registrationBytes (host : Option Host) (now : Int64) (nonce : Bytes) : List Bytes :=
  match host with
  | none => []
  | some h =>
    if h.sshHostPublicKey = [] then [] else (S.registration h now nonce).canonical.toOption.toList

def connectBytes (host : Option Host) (path : GoString) (now : Int64) (nonce : Bytes) :
    List Bytes :=
  match host with
  | none => []
  | some h => (connect h path now nonce).canonical.toOption.toList

def newGrantBytes (h : Host) (grantID : GoString) (now expiresAt : Int64) : List Bytes :=
  let g : Protocol.Grant :=
    { version, hostID := h.hostID, grantID, sshUser := h.sshUser, createdAt := now, expiresAt }
  g.canonical.toOption.toList

/-- In `PendingPublications`, which stops at the first message without a
canonical form. -/
def publicationBytes (h : Host) : List GrantRow → List Bytes
  | [] => []
  | r :: rest =>
    match (publication h r).canonical with
    | .error _ => []
    | .ok canon => canon :: publicationBytes h rest

/-- The handler of `POST /connect-auth`. -/
def connectAuth (host : Option Host) (path : GoString) (now : Int64) (nonce : Bytes) :
    Except ErrCode ConnectAuth := do
  ensure (rendezvousPath path) .badRequest
  (S.signConnect host path now nonce).mapError fun _ => .internal

-- ---------------------------------------------------------------------------
-- The two sockets
-- ---------------------------------------------------------------------------

/-- Requests of the daemon, and everything that goes on beside them.
`PendingPublications` reads the host and the grants in two statements. -/
inductive Request
  | system (a : Action)
  | registration (now : Int64) (nonce : Bytes)
  | connectAuth (path : GoString) (now : Int64) (nonce : Bytes)
  | publications (i : Nat)
  | signPublications (i : Nat) (now : Int64)
  | status

/-- `signed` is a ghost: every byte string that went to the key, with the
tables as they were. -/
structure Daemon where
  state : State
  reads : Nat → Option Host
  signed : List (Bytes × Store)

/-- What the key signs in one step. -/
def signs (s : Daemon) : Request → List Bytes
  | .system (.create i draw) =>
    match s.state.creates i with
    | .counted now expiresAt h =>
      match s.state.store.createGrant (newGrantID draw.raw) draw.secret h.sshUser now expiresAt with
      | none => []
      | some _ => newGrantBytes h (newGrantID draw.raw) now expiresAt
    | _ => []
  | .system _ | .publications _ | .status => []
  | .registration now nonce => S.registrationBytes s.state.store.host now nonce
  | .connectAuth path now nonce =>
    if rendezvousPath path then connectBytes s.state.store.host path now nonce else []
  | .signPublications i now =>
    match s.reads i with
    | none => []
    | some h => publicationBytes h (s.state.store.pendingPublications now)

/-- What a request changes beside the ghost. -/
def next (s : Daemon) : Request → Option (State × (Nat → Option Host))
  | .system a => (step S s.state a).map (·, s.reads)
  | .registration .. | .connectAuth .. | .status => some (s.state, s.reads)
  | .publications i => some (s.state, set s.reads i s.state.store.host)
  | .signPublications i _ => some (s.state, set s.reads i none)

def daemon : Machine Daemon Request where
  Init s := Initial s.state ∧ (∀ i, s.reads i = none) ∧ s.signed = []
  step s req := (next S s req).map fun p =>
    ⟨p.1, p.2, (signs S s req).map (·, p.1.store) ++ s.signed⟩

/-- `NewNonce` draws 16 bytes, and `NewGrantID` draws 10. -/
def Drawn (_ : Daemon) : Request → Prop
  | .registration _ nonce | .connectAuth _ _ nonce => nonce.length = nonceLen
  | .system (.create _ draw) => draw.raw.length = 10
  | _ => True

instance (s : Daemon) (req : Request) : Decidable (Drawn s req) :=
  match req with
  | .registration .. | .connectAuth .. | .system (.create ..) => inferInstanceAs (Decidable (_ = _))
  | .system (.tick _) | .system (.enroll ..) | .system (.createStart ..)
  | .system (.redeemStart ..) | .system (.redeem ..) | .system (.redeemFail _)
  | .system (.revoke ..) | .system (.markPublished ..) | .system (.purgeGrants ..)
  | .system (.purgeNonces ..) | .publications _ | .signPublications .. | .status =>
    inferInstanceAs (Decidable True)

-- ---------------------------------------------------------------------------
-- Answers carry signatures of those bytes
-- ---------------------------------------------------------------------------

variable {S}

theorem registrationBytes_eq {host : Option Host} {now : Int64} :
    e ∈ S.registrationBytes host now nonce ↔ ∃ h, host = some h ∧ h.sshHostPublicKey ≠ [] ∧
      (S.registration h now nonce).canonical = .ok e := by
  cases host with
  | none => simp [registrationBytes]
  | some h =>
    by_cases hkey : h.sshHostPublicKey = [] <;>
      simp [registrationBytes, hkey, toOption_eq_some]

theorem connectBytes_eq {host : Option Host} {now : Int64} :
    e ∈ connectBytes host path now nonce ↔ ∃ h, host = some h ∧
      (connect h path now nonce).canonical = .ok e := by
  cases host with
  | none => simp [connectBytes]
  | some h => simp [connectBytes, toOption_eq_some]

theorem mem_publicationBytes {pending : List GrantRow} (he : e ∈ publicationBytes h pending) :
    ∃ r ∈ pending, (publication h r).canonical = .ok e := by
  induction pending with
  | nil => cases he
  | cons r rest ih =>
    simp only [publicationBytes] at he
    split at he
    · cases he
    · rename_i canon hcanon
      rcases List.mem_cons.mp he with rfl | he
      · exact ⟨r, by simp, hcanon⟩
      · obtain ⟨q, hq, hcanon⟩ := ih he
        exact ⟨q, List.mem_cons_of_mem _ hq, hcanon⟩

theorem hostRegistration_signed {host : Option Host} {now : Int64}
    (h : S.hostRegistration host now nonce = .ok req) :
    ∃ e ∈ S.registrationBytes host now nonce, req.signature = S.sign e := by
  obtain ⟨row, msg, rfl, hkey, hmsg, rfl⟩ := hostRegistration_eq_ok.mp h
  exact ⟨msg, registrationBytes_eq.mpr ⟨row, rfl, hkey, hmsg⟩, rfl⟩

theorem connectAuth_signed {host : Option Host} {now : Int64}
    (h : S.connectAuth host path now nonce = .ok auth) : rendezvousPath path = true ∧
    ∃ e ∈ connectBytes host path now nonce, auth.signature = b64 (S.sign e) := by
  simp only [connectAuth, bind_eq_ok, ensure_eq_ok, mapError_eq_ok] at h
  obtain ⟨_, hpath, h⟩ := h
  refine ⟨hpath, ?_⟩
  cases host with
  | none => cases h
  | some host =>
    simp only [signConnect, bind_eq_ok, mapError_eq_ok, pure_eq_ok] at h
    obtain ⟨msg, hmsg, rfl⟩ := h
    exact ⟨msg, connectBytes_eq.mpr ⟨host, rfl, hmsg⟩, rfl⟩

theorem newGrant_signed (h : S.newGrant host grantID secret now expiresAt = .ok g) :
    ∃ e ∈ newGrantBytes host grantID now expiresAt, g.signature = S.sign e := by
  simp only [newGrant, bind_eq_ok, mapError_eq_ok, pure_eq_ok] at h
  obtain ⟨msg, hmsg, rfl⟩ := h
  exact ⟨msg, Option.mem_toList.mpr (toOption_eq_some.mpr hmsg), rfl⟩

theorem signPublications_eq_ok {pending : List GrantRow} :
    S.signPublications host pending = .ok out ↔
      List.Forall₂ (fun r p => ∃ canon, (publication host r).canonical = .ok canon ∧
        p = ⟨publication host r, S.sign canon⟩) pending out := by
  induction pending generalizing out with
  | nil =>
    simp only [signPublications, List.mapM_nil, pure_eq_ok, List.forall₂_nil_left_iff]
    exact eq_comm
  | cons r rest ih =>
    simp only [signPublications] at ih
    simp only [signPublications, List.mapM_cons, bind_eq_ok, mapError_eq_ok, pure_eq_ok, ih,
      List.forall₂_cons_left_iff]
    constructor
    · rintro ⟨p, ⟨canon, hcanon, rfl⟩, tail, htail, rfl⟩
      exact ⟨_, tail, ⟨canon, hcanon, rfl⟩, htail, rfl⟩
    · rintro ⟨p, tail, ⟨canon, hcanon, rfl⟩, htail, rfl⟩
      exact ⟨_, ⟨canon, hcanon, rfl⟩, tail, htail, rfl⟩

theorem signPublications_isOk {pending : List GrantRow}
    (h : ∀ r ∈ pending, ∃ msg, (publication host r).canonical = .ok msg) :
    ∃ reqs, S.signPublications host pending = .ok reqs ∧
      reqs.map (·.grant) = pending.map (publication host) := by
  induction pending with
  | nil => exact ⟨[], rfl, rfl⟩
  | cons r rest ih =>
    obtain ⟨msg, hmsg⟩ := h r List.mem_cons_self
    obtain ⟨reqs, hreqs, hgrants⟩ := ih fun q hq => h q (List.mem_cons_of_mem _ hq)
    refine ⟨⟨publication host r, S.sign msg⟩ :: reqs, ?_, ?_⟩
    · rw [signPublications_eq_ok] at hreqs ⊢
      exact .cons ⟨msg, hmsg, rfl⟩ hreqs
    · rw [List.map_cons, hgrants, List.map_cons]

theorem signPublications_mem {pending : List GrantRow}
    (h : S.signPublications host pending = .ok reqs) (hreq : req ∈ reqs) :
    ∃ r ∈ pending, ∃ msg, (publication host r).canonical = .ok msg ∧
      req = ⟨publication host r, S.sign msg⟩ := by
  have hall := signPublications_eq_ok.mp h
  clear h
  induction hall with
  | nil => cases hreq
  | @cons r p rest out hp _ ih =>
    rcases List.mem_cons.mp hreq with rfl | hreq
    · exact ⟨r, List.mem_cons_self, hp⟩
    · obtain ⟨q, hq, hmade⟩ := ih hreq
      exact ⟨q, List.mem_cons_of_mem _ hq, hmade⟩

theorem signPublications_signed {pending : List GrantRow}
    (h : S.signPublications host pending = .ok out) :
    ∀ p ∈ out, ∃ e ∈ publicationBytes host pending, p.signature = S.sign e := by
  have hall := signPublications_eq_ok.mp h
  clear h
  induction hall with
  | nil => exact nofun
  | @cons r p rest out hp _ ih =>
    obtain ⟨canon, hcanon, rfl⟩ := hp
    simp only [publicationBytes, hcanon]
    intro q hq
    rcases List.mem_cons.mp hq with rfl | hq
    · exact ⟨canon, by simp, rfl⟩
    · obtain ⟨e, he, hsig⟩ := ih q hq
      exact ⟨e, List.mem_cons_of_mem _ he, hsig⟩

-- ---------------------------------------------------------------------------
-- The tables that messages are written from
-- ---------------------------------------------------------------------------

def CreateState.host : CreateState → Option Host
  | .hostRead _ _ h | .counted _ _ h => some h
  | .idle | .started .. | .done _ => none

def Stored (s : State) (a : Action) (r : GrantRow) : Prop :=
  ∃ i draw now expiresAt h, a = .create i draw ∧ s.creates i = .counted now expiresAt h ∧
    r.id = newGrantID draw.raw ∧ r.sshUser = h.sshUser

variable (S) in
/-- What a step can do to the host row, to the rows that calls have read, and
to the columns of a grant that are signed. -/
structure Written (a : Action) (s t : State) : Prop where
  host : (∀ h, s.store.host = some h → Enrolled S h) →
    ∀ h, t.store.host = some h → Enrolled S h
  stays : s.store.host.isSome = true → t.store.host.isSome = true
  calls : ∀ i h, (t.creates i).host = some h →
    (s.creates i).host = some h ∨ s.store.host = some h
  rows : ∀ r ∈ t.store.grants.rows,
    (∃ r₀ ∈ s.store.grants.rows, r.id = r₀.id ∧ r.sshUser = r₀.sshUser) ∨ Stored s a r

def GrantRow.origin (r : GrantRow) : GoString × Bytes × GoString × Int64 × Int64 :=
  (r.id, r.secret, r.sshUser, r.createdAt, r.expiresAt)

theorem updated_origins {grants : Table GrantRow.id} {f : GrantRow → GrantRow}
    (hf : ∀ r, (f r).id = r.id) (horigin : ∀ r, (f r).origin = r.origin) :
    ∀ r ∈ (grants.update f hf).rows, ∃ r₀ ∈ grants.rows, r.origin = r₀.origin := by
  intro r hr
  obtain ⟨r₀, hr₀, rfl⟩ := List.mem_map.mp hr
  exact ⟨r₀, hr₀, horigin r₀⟩

theorem redeem_host (h : redeemNext S i draw s st = some (st', s', es)) : s'.host = s.host := by
  cases redeemNext_step S h with
  | early _ _ _ _ hhost => exact hhost
  | claim | issue | stop => rfl
  | record hrec => exact (Store.recordCertificate_grants hrec).2.1

theorem step_rows (h : step S s a = some t) : ∀ r ∈ t.store.grants.rows,
    (∃ r₀ ∈ s.store.grants.rows, r.origin = r₀.origin) ∨
    ∃ i draw now expiresAt h, a = .create i draw ∧ s.creates i = .counted now expiresAt h ∧
      r.origin = (newGrantID draw.raw, draw.secret, h.sshUser, now, expiresAt) := by
  intro r hr
  have hstep := grantsStep h
  generalize t.store.grants = grants at hstep hr
  cases hstep with
  | same => exact .inl ⟨r, hr, rfl⟩
  | @created i draw now expiresAt host _ hi hrow =>
    rw [(Table.insert_eq_some hrow).2] at hr
    rcases List.mem_append.mp hr with hold | hnew
    · exact .inl ⟨r, hold, rfl⟩
    · rw [List.mem_singleton.mp hnew]
      exact .inr ⟨i, draw, now, expiresAt, host, rfl, hi, rfl⟩
  | redeemed =>
    refine .inl (updated_origins Store.redeemRow_id (fun r => ?_) r hr)
    unfold Store.redeemRow
    split <;> rfl
  | revoked =>
    refine .inl (updated_origins Store.revokeRow_id (fun r => ?_) r hr)
    unfold Store.revokeRow
    split <;> rfl
  | published =>
    refine .inl (updated_origins Store.markPublishedRow_id (fun r => ?_) r hr)
    unfold Store.markPublishedRow
    split <;> rfl
  | purged => exact .inl ⟨r, (List.mem_filter.mp hr).1, rfl⟩

theorem step_columns (h : step S s a = some t) : ∀ r ∈ t.store.grants.rows,
    (∃ r₀ ∈ s.store.grants.rows, r.id = r₀.id ∧ r.sshUser = r₀.sshUser) ∨ Stored s a r := by
  intro r hr
  rcases step_rows h r hr with ⟨r₀, hr₀, horigin⟩ | ⟨i, draw, now, e, host, ha, hi, horigin⟩
  · simp only [GrantRow.origin, Prod.mk.injEq] at horigin
    exact .inl ⟨r₀, hr₀, horigin.1, horigin.2.2.1⟩
  · simp only [GrantRow.origin, Prod.mk.injEq] at horigin
    exact .inr ⟨i, draw, now, e, host, ha, hi, horigin.1, horigin.2.2.1⟩

theorem Written.quiet (hstep : step S s a = some t) (hhost : t.store.host = s.store.host)
    (hcalls : ∀ i h, (t.creates i).host = some h → (s.creates i).host = some h) : Written S a s t :=
  ⟨fun hs h hh => hs h (hhost ▸ hh), fun hs => hhost ▸ hs, fun i h hi => .inl (hcalls i h hi),
    step_columns hstep⟩

theorem createNext_host (h : createNext S draw s st = some (st', s', es))
    (hh : st'.host = some host) : st.host = some host ∨ s.host = some host := by
  cases st with
  | idle => cases h
  | done => cases h
  | started now expiresAt =>
    simp only [createNext] at h
    split at h
    · cases h
      cases hh
    · rename_i hs
      cases h
      exact .inr (hs.trans hh)
  | hostRead now expiresAt hst =>
    simp only [createNext] at h
    split at h
    · cases h
      cases hh
    · cases h
      exact .inl hh
  | counted now expiresAt hst =>
    simp only [createNext] at h
    split at h <;> cases h <;> cases hh

theorem step_written (h : step S s a = some t) : Written S a s t := by
  have hcalls {i : Nat} {st : CreateState} (hst : st.host = none) (j : Nat) (h : Host)
      (hj : (set s.creates i st j).host = some h) : (s.creates j).host = some h := by
    by_cases hji : j = i
    · rw [hji, set_same, hst] at hj
      cases hj
    · rwa [set_of_ne _ _ hji] at hj
  have hstep := h
  cases acts h with
  | tick | redeemStart | redeemFail | revoke | markPublished | purgeGrants | purgeNonces =>
    exact .quiet hstep rfl fun _ _ => id
  | @enroll now sshUser hostname port line host hframe =>
    have hhost := congrArg (·.host) hframe
    refine ⟨fun hs h hh => enroll_enrolled hs (hhost.trans hh), fun hs => ?_, fun _ _ => .inl,
      step_columns hstep⟩
    refine (congrArg Option.isSome hhost).symm.trans ?_
    unfold enroll Store.setHost
    split
    · exact hs
    · split <;> rfl
  | refuse | start => exact .quiet hstep rfl (hcalls rfl)
  | insert => exact .quiet hstep rfl (hcalls rfl)
  | @create i draw st hnext =>
    refine ⟨fun hs => hs, id, fun j host hj => ?_, step_columns hstep⟩
    dsimp only at hj
    by_cases hji : j = i
    · subst hji
      rw [set_same] at hj
      exact createNext_host hnext hj
    · rw [set_of_ne _ _ hji] at hj
      exact .inl hj
  | redeem hnext => exact .quiet hstep (redeem_host hnext) fun _ _ => id

variable (S) in
/-- Every host row that a message is written from is an enrolled one, and so
are the rows of the grants in order. -/
structure Clean (s : Daemon) : Prop where
  host : ∀ h, s.state.store.host = some h → Enrolled S h
  calls : ∀ i h, (s.state.creates i).host = some h →
    Enrolled S h ∧ s.state.store.host.isSome = true
  reads : ∀ i h, s.reads i = some h → Enrolled S h ∧ s.state.store.host.isSome = true
  rows : ∀ r ∈ s.state.store.grants.rows,
    validGrantID r.id = true ∧ validateSSHUser r.sshUser = .ok ()

theorem Clean.system (hs : Clean S s) (hd : Drawn s (.system a)) (h : step S s.state a = some t) :
    Clean S ⟨t, s.reads, signed⟩ := by
  have hw := step_written h
  refine ⟨hw.host hs.host, fun i host hi => ?_, fun i host hi => ?_, fun r hr => ?_⟩
  · rcases hw.calls i host hi with hold | hread
    · exact ⟨(hs.calls i host hold).1, hw.stays (hs.calls i host hold).2⟩
    · exact ⟨hs.host host hread, hw.stays (by simp [hread])⟩
  · exact ⟨(hs.reads i host hi).1, hw.stays (hs.reads i host hi).2⟩
  · rcases hw.rows r hr with ⟨r₀, hr₀, hid, huser⟩ | ⟨i, draw, now, e, host, rfl, hi, hid, huser⟩
    · rw [hid, huser]
      exact hs.rows r₀ hr₀
    · rw [hid, huser]
      exact ⟨validGrantID_newGrantID hd, (hs.calls i host (by rw [hi]; rfl)).1.sshUser⟩

theorem Clean.set_read {read : Option Host} (hs : Clean S s)
    (hread : ∀ h, read = some h → s.state.store.host = some h) :
    Clean S ⟨s.state, set s.reads i read, signed⟩ := by
  refine ⟨hs.host, hs.calls, fun j host hj => ?_, hs.rows⟩
  by_cases hji : j = i
  · simp only [hji, set_same] at hj
    have hstored := hread host hj
    exact ⟨hs.host host hstored, by simp [hstored]⟩
  · simp only [set_of_ne _ _ hji] at hj
    exact hs.reads j host hj

theorem Clean.next (hs : Clean S s) (hd : Drawn s req) (h : next S s req = some p) :
    Clean S ⟨p.1, p.2, signed⟩ := by
  cases req with
  | system a =>
    obtain ⟨t, hstep, rfl⟩ := Option.map_eq_some_iff.mp h
    exact hs.system hd hstep
  | registration | connectAuth | status =>
    cases h
    exact ⟨hs.host, hs.calls, hs.reads, hs.rows⟩
  | publications i =>
    cases h
    exact hs.set_read fun _ => id
  | signPublications i now =>
    cases h
    exact hs.set_read nofun

theorem Clean.initial (h : (daemon S).Init s) : Clean S s := by
  obtain ⟨⟨hstore, -, hcreates, -⟩, hreads, -⟩ := h
  refine ⟨fun host hh => ?_, fun i host hi => ?_, fun i host hi => ?_, fun r hr => ?_⟩
  · rw [hstore] at hh
    cases hh
  · rw [hcreates i] at hi
    cases hi
  · rw [hreads i] at hi
    cases hi
  · rw [hstore] at hr
    cases hr

-- ---------------------------------------------------------------------------
-- Every message is meant
-- ---------------------------------------------------------------------------

variable (S) in
/-- The messages the identity key is there to sign, with the tables as `store`
has them. -/
inductive Sanctioned (store : Store) : Message → Prop
  | registration {h} (hh : store.host = some h) (now : Int64) (nonce : Bytes) :
      Sanctioned store (.hostRegistration (S.registration h now nonce))
  | connect {h} (hh : store.host = some h) {path} (hpath : lit "/v1/hosts/" <+: path) (now : Int64)
      (nonce : Bytes) : Sanctioned store (.hostConnect (connect h path now nonce))
  | grant {h r} (hh : store.host = some h) (hr : r ∈ store.grants.rows) :
      Sanctioned store (.grant (publication h r))

theorem Enrolled.hostID_eq (h : Enrolled S host) (h' : Enrolled S host') :
    host.hostID = host'.hostID :=
  Except.ok.inj (h.hostID.symm.trans h'.hostID)

/-- A grant is signed for a row in the table, by a call that has read an
enrolled host row at any time before. -/
theorem grant_sanctioned (hread : Enrolled S host) (hin : ∃ h, store.host = some h ∧ Enrolled S h)
    (hr : r ∈ store.grants.rows) : Sanctioned S store (.grant (publication host r)) := by
  obtain ⟨h, hh, henrolled⟩ := hin
  have hsame : publication host r = publication h r := by
    rw [publication, hread.hostID_eq henrolled, publication]
  rw [hsame]
  exact .grant hh hr

theorem signs_sanctioned (hs : Clean S s) (hd : Drawn s req) (hnext : next S s req = some p)
    (he : e ∈ signs S s req) :
    ∃ m, m.canonical = .ok e ∧ Sanctioned S p.1.store m ∧ Signable S m := by
  have hclean : Clean S ⟨p.1, p.2, []⟩ := hs.next hd hnext
  have hin (h : p.1.store.host.isSome = true) : ∃ h, p.1.store.host = some h ∧ Enrolled S h := by
    obtain ⟨host, hh⟩ := Option.isSome_iff_exists.mp h
    exact ⟨host, hh, hclean.host host hh⟩
  cases req with
  | publications | status => cases he
  | registration now nonce =>
    cases hnext
    obtain ⟨h, hh, -, hcanon⟩ := registrationBytes_eq.mp he
    exact ⟨.hostRegistration _, hcanon, .registration hh now nonce,
      .registration now (hs.host h hh) hd⟩
  | connectAuth path now nonce =>
    cases hnext
    simp only [signs] at he
    split at he
    · rename_i hpath
      obtain ⟨h, hh, hcanon⟩ := connectBytes_eq.mp he
      refine ⟨.hostConnect _, hcanon, .connect hh ?_ now nonce,
        .connect now (hs.host h hh) hpath hd⟩
      simp only [rendezvousPath, Bool.not_eq_true', Bool.or_eq_false_iff,
        Bool.not_eq_false'] at hpath
      exact List.isPrefixOf_iff_prefix.mp hpath.1.2
    · cases he
  | signPublications i now =>
    cases hnext
    simp only [signs] at he
    split at he
    · cases he
    · rename_i host hread
      obtain ⟨r, hr, hcanon⟩ := mem_publicationBytes he
      have hrow : r ∈ s.state.store.grants.rows :=
        (List.mem_filter.mp (List.mem_mergeSort.mp hr)).1
      obtain ⟨henrolled, hsome⟩ := hs.reads i host hread
      exact ⟨.grant _, hcanon, grant_sanctioned henrolled (hin hsome) hrow,
        .grant henrolled (hs.rows r hrow).1 (hs.rows r hrow).2⟩
  | system a =>
    cases a with
    | create i draw =>
      simp only [signs] at he
      split at he
      · rename_i now expiresAt host hi
        split at he
        · cases he
        · rename_i store hins
          obtain ⟨t, hstep, rfl⟩ := Option.map_eq_some_iff.mp hnext
          obtain ⟨henrolled, hsome⟩ := hs.calls i host (by rw [hi]; rfl)
          have hcanon := toOption_eq_some.mp (Option.mem_toList.mp he)
          simp only [step, createNext, hi, hins] at hstep
          cases hstep
          obtain ⟨grants, hrow, rfl⟩ := Store.createGrant_eq_some hins
          let row : GrantRow := ⟨newGrantID draw.raw, draw.secret, host.sshUser, now, expiresAt,
            none, none, none, none, none⟩
          have hmem : row ∈ grants.rows := by
            rw [(Table.insert_eq_some hrow).2]
            exact List.mem_append_right _ (List.mem_singleton.mpr rfl)
          exact ⟨.grant (publication host row), hcanon,
            grant_sanctioned henrolled (hin hsome) hmem,
            .grant henrolled (validGrantID_newGrantID hd) henrolled.sshUser⟩
      · cases he
    | _ => cases he

/-- A byte string on record was signed in a state of the run, for a message
that the tables of that state sanction. -/
def Accounted (S : Signer) (s : Daemon) : Prop :=
  ∀ e store, (e, store) ∈ s.signed →
    (∃ u, (daemon S).Reachable Drawn u ∧ (daemon S).Run Drawn u s ∧ u.state.store = store) ∧
    ∃ m, m.canonical = .ok e ∧ Sanctioned S store m ∧ Signable S m

theorem Clean.reachable (hs : (daemon S).Reachable Drawn s) : Clean S s := by
  refine hs.invariant (I := Clean S) (fun _ => Clean.initial) fun s req t hclean hd hstep => ?_
  obtain ⟨p, hnext, rfl⟩ := Option.map_eq_some_iff.mp hstep
  exact hclean.next hd hnext

theorem Accounted.step (hs : (daemon S).Reachable Drawn s) (h : Accounted S s) (hd : Drawn s req)
    (hstep : (daemon S).step s req = some t) : Accounted S t := by
  have ht := hs.step hd hstep
  obtain ⟨p, hnext, rfl⟩ := Option.map_eq_some_iff.mp hstep
  intro e store he
  rcases List.mem_append.mp he with hnew | hold
  · obtain ⟨e', he', heq⟩ := List.mem_map.mp hnew
    cases heq
    exact ⟨⟨_, ht, .refl _, rfl⟩, signs_sanctioned (.reachable hs) hd hnext he'⟩
  · obtain ⟨⟨u, hu, hrun, hstore⟩, hm⟩ := h e store hold
    exact ⟨⟨u, hu, hrun.step hd hstep, hstore⟩, hm⟩

theorem Accounted.reachable (hs : (daemon S).Reachable Drawn s) : Accounted S s := by
  obtain ⟨s₀, hinit, hrun⟩ := hs
  induction hrun with
  | refl =>
    intro e store he
    rw [hinit.2.2] at he
    cases he
  | step hrun hd hstep ih => exact ih.step ⟨s₀, hinit, hrun⟩ hd hstep

def hostContexts : List GoString := [ctxHostRegister, ctxHostConnect, ctxGrant]

theorem Sanctioned.context (h : Sanctioned S store m) : m.context ∈ hostContexts := by
  cases h <;> simp [Message.context, hostContexts]

/-- Whatever the daemon asks for, each byte string that the identity key signs
is one of the three messages of a host, written from the tables of that moment.
No other kind of message has these bytes, and no other grant. -/
theorem daemon_not_signing_oracle (S : Signer) (hs : (daemon S).Reachable Drawn s)
    (he : (e, store) ∈ s.signed) :
    (∃ u, (daemon S).Reachable Drawn u ∧ (daemon S).Run Drawn u s ∧ u.state.store = store) ∧
    ∃ m, m.canonical = .ok e ∧ Sanctioned S store m ∧
      (∀ m' : Message, m'.canonical = .ok e → m'.context = m.context) ∧
      (∀ g, (Message.grant g).canonical = .ok e → m = .grant g) ∧
      (∀ p, (Message.redemptionSig p).canonical ≠ .ok e ∧
        (Message.redemptionMAC p).canonical ≠ .ok e) ∧
      ∀ a, (Message.agentRegistration a).canonical ≠ .ok e := by
  obtain ⟨hwhen, m, hm, hsanctioned, hsignable⟩ := Accounted.reachable hs e store he
  have hcontext (m' : Message) (h' : m'.canonical = .ok e) : m'.context = m.context :=
    Message.context_of_canonical h' hm
  have hother (m' : Message) (hne : m'.context ∉ hostContexts) : m'.canonical ≠ .ok e :=
    fun h' => hne (hcontext m' h' ▸ hsanctioned.context)
  refine ⟨hwhen, m, hm, hsanctioned, hcontext, fun g hg => ?_, fun p => ⟨?_, ?_⟩, fun a => ?_⟩
  · have hctx := hcontext _ hg
    cases hsanctioned with
    | registration => exact absurd hctx (by decide : ctxGrant ≠ ctxHostRegister)
    | connect => exact absurd hctx (by decide : ctxGrant ≠ ctxHostConnect)
    | grant =>
      exact Message.eq_of_canonical hm hg (Nat.lt_of_le_of_lt hsignable.grant_size (by decide))
  · exact hother _ (by decide : ctxRedemptionSig ∉ hostContexts)
  · exact hother _ (by decide : ctxRedemptionMAC ∉ hostContexts)
  · exact hother _ (by decide : ctxAgentRegister ∉ hostContexts)

namespace Sample

def asked : List Request :=
  setUp.map .system ++
  [.registration 1700000000 registrationNonce,
    .connectAuth (lit "/v1/hosts/" ++ hostID ++ lit "/connect") 1700000000 registrationNonce,
    .connectAuth (lit "/v1/agents") 1700000000 registrationNonce,
    .publications 0, .signPublications 0 1700000000]

end Sample

/-- Four of the five requests are answered with a signature; the grant is
signed twice. -/
theorem daemon_not_signing_oracle_sample : ∃ s e store,
    (daemon Sample.sample).Reachable Drawn s ∧ s.signed.length = 4 ∧ (e, store) ∈ s.signed ∧
    ∃ m, m.canonical = .ok e ∧ Sanctioned Sample.sample store m := by
  have hrun : ((daemon Sample.sample).exec Drawn ⟨Sample.initial, fun _ => none, []⟩
      Sample.asked).any (fun s => s.signed.length == 4) = true := by
    decide +kernel
  obtain ⟨s, hs, hcount⟩ := Option.any_eq_true .. |>.mp hrun
  have hinit : (daemon Sample.sample).Init ⟨Sample.initial, fun _ => none, []⟩ :=
    ⟨⟨rfl, fun _ => rfl, fun _ => rfl, rfl⟩, fun _ => rfl, rfl⟩
  have hreach := (Machine.Reachable.of_init hinit).run (.of_exec hs)
  have hlen : s.signed.length = 4 := beq_iff_eq.mp hcount
  obtain ⟨⟨e, store⟩, rest, hsigned⟩ := List.exists_cons_of_length_pos (l := s.signed) (by omega)
  have he : (e, store) ∈ s.signed := by simp [hsigned]
  obtain ⟨-, m, hm, hsanctioned, -⟩ := daemon_not_signing_oracle Sample.sample hreach he
  exact ⟨s, e, store, hreach, hlen, he, m, hm, hsanctioned⟩

end Grantd.Signer
