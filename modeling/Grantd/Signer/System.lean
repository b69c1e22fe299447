import Grantd.Base.Machine
import Grantd.Signer.Ops

/-!
# Concurrent calls on one database

Any number of `Redeem` and `CreateGrant` calls run at once, interleaved with
each other and with the owner's and the daemon's single statements. A step is
one SQL statement or transaction, or a part of a call between two of them.
`log` is a ghost: what has happened so far, newest first.
-/

namespace Grantd.Signer

open Base Protocol

-- ---------------------------------------------------------------------------
-- Calls in progress
-- ---------------------------------------------------------------------------

structure RedeemCall where
  now : Time
  req : RedemptionRequest
  deriving DecidableEq

/-- How far a `Redeem` call has come, with its local variables. -/
inductive RedeemState
  | idle
  | started (c : RedeemCall)
  | checked (c : RedeemCall) (h : Host) (key : SSHPublicKey)
  | pruned (c : RedeemCall) (h : Host) (key : SSHPublicKey)
  | remembered (c : RedeemCall) (h : Host) (key : SSHPublicKey)
  | claimed (c : RedeemCall) (h : Host) (key : SSHPublicKey) (claim : Claim)
  | issued (c : RedeemCall) (h : Host) (key : SSHPublicKey) (claim : Claim) (cert : Certificate)
  | done (result : Except RedeemError RedemptionResponse)

inductive CreateState
  | idle
  | started (now expiresAt : Int64)
  | hostRead (now expiresAt : Int64) (h : Host)
  | counted (now expiresAt : Int64) (h : Host)
  | done (result : Except CreateError NewGrant)

inductive Event
  | created (id : GoString) (expiresAt : Int64)
  | revoked (id : GoString)
  | claimed (call : Nat) (id : GoString) (now : Int64)
  | issued (call : Nat) (id : GoString) (cert : Certificate)
  | returned (call : Nat) (id : GoString) (cert : Certificate)
  deriving DecidableEq

structure State where
  store : Store
  redeems : Nat → RedeemState
  creates : Nat → CreateState
  clock : Int64
  log : List Event

def set (f : Nat → α) (i : Nat) (a : α) : Nat → α := fun j => if j = i then a else f j

@[simp] theorem set_same (f : Nat → α) (i : Nat) (a : α) : set f i a i = a := by simp [set]

@[simp] theorem set_of_ne (f : Nat → α) (a : α) (h : j ≠ i) : set f i a j = f j := by simp [set, h]

-- ---------------------------------------------------------------------------
-- Steps
-- ---------------------------------------------------------------------------

variable (S : Signer)

def redeemNext (i : Nat) (draw : Draw) (s : Store) :
    RedeemState → Option (RedeemState × Store × List Event)
  | .idle => none
  | .started c =>
    match do checkVersion c.req.payload; S.checkRequest s.host c.now.unix c.req with
    | .error e => some (.done (.error e), s, [])
    | .ok (h, key) => some (.checked c h key, s, [])
  | .checked c h key => some (.pruned c h key, s.pruneNonces c.now.unix nonceRetention, [])
  | .pruned c h key =>
    match s.insertNonce redeemScope c.req.payload.nonce c.now.unix with
    | none =>
      some (.done (.error (redeemErr .replayedNonce "nonce has already been used")), s, [])
    | some s => some (.remembered c h key, s, [])
  | .remembered c h key =>
    match S.claim c.now.unix c.req key s with
    | .error e => some (.done (.error (.canonical e)), s, [])
    | .ok (result, s) =>
      match claimed result with
      | .error e => some (.done (.error e), s, [])
      | .ok claim =>
        some (.claimed c h key claim, s, [.claimed i c.req.payload.grantID c.now.unix])
  | .claimed c h key claim =>
    match issue S.ca draw.nonce (certRequest c.now c.req.payload key claim draw.serial) with
    | .error e => some (.done (.error (.issue e)), s, [])
    | .ok cert => some (.issued c h key claim cert, s, [.issued i c.req.payload.grantID cert])
  | .issued c h key claim cert =>
    match s.recordCertificate (S.certificateRow c.now c.req.payload key claim cert) with
    | none => some (.done (.error .store), s, [])
    | some s =>
      some (.done (.ok (S.response h claim cert)), s, [.returned i c.req.payload.grantID cert])
  | .done _ => none

structure GrantDraw where
  raw : Bytes
  secret : Bytes
  deriving DecidableEq

def createNext (draw : GrantDraw) (s : Store) :
    CreateState → Option (CreateState × Store × List Event)
  | .idle => none
  | .started now expiresAt =>
    match s.host with
    | none => some (.done (.error .noHost), s, [])
    | some h => some (.hostRead now expiresAt h, s, [])
  | .hostRead now expiresAt h =>
    if s.activeGrantCount now ≥ maxActiveGrants then some (.done (.error .tooManyGrants), s, [])
    else some (.counted now expiresAt h, s, [])
  | .counted now expiresAt h =>
    match s.createGrant (newGrantID draw.raw) draw.secret h.sshUser now expiresAt with
    | none => some (.done (.error .store), s, [])
    | some s =>
      some (.done (S.newGrant h (newGrantID draw.raw) draw.secret now expiresAt), s,
        [.created (newGrantID draw.raw) expiresAt])
  | .done _ => none

inductive Action
  | tick (time : Int64)
  | enroll (now : Int64) (sshUser hostname : GoString) (port : UInt64) (line : GoString)
  | createStart (i : Nat) (now ttlSeconds : Int64)
  | create (i : Nat) (draw : GrantDraw)
  | redeemStart (i : Nat) (now : Time) (req : RedemptionRequest)
  | redeem (i : Nat) (draw : Draw)
  | redeemFail (i : Nat)
  | revoke (now : Int64) (id : GoString)
  | markPublished (now : Int64) (id : GoString)
  | purgeGrants (now retain : Int64)
  | purgeNonces (now retain : Int64)

/-- A call may fail at any point for reasons of the database or the random
source; `redeemFail` is that. Nothing is written then. -/
def step (s : State) : Action → Option State
  | .tick time => some { s with clock := time }
  | .enroll now sshUser hostname port line =>
    some { s with store := (S.enroll now sshUser hostname port line s.store).2 }
  | .createStart i now ttlSeconds =>
    match s.creates i with
    | .idle =>
      match S.createWindow now ttlSeconds with
      | .error e => some { s with creates := set s.creates i (.done (.error e)) }
      | .ok expiresAt => some { s with creates := set s.creates i (.started now expiresAt) }
    | _ => none
  | .create i draw =>
    match createNext S draw s.store (s.creates i) with
    | none => none
    | some (st, store, events) =>
      some { s with store, creates := set s.creates i st, log := events ++ s.log }
  | .redeemStart i now req =>
    match s.redeems i with
    | .idle => some { s with redeems := set s.redeems i (.started ⟨now, req⟩) }
    | _ => none
  | .redeem i draw =>
    match redeemNext S i draw s.store (s.redeems i) with
    | none => none
    | some (st, store, events) =>
      some { s with store, redeems := set s.redeems i st, log := events ++ s.log }
  | .redeemFail i =>
    match s.redeems i with
    | .idle | .done _ => none
    | _ => some { s with redeems := set s.redeems i (.done (.error .store)) }
  | .revoke now id =>
    if validGrantID id then
      some { s with
        store := s.store.revoke id now
        log := (if s.store.revokes id then [.revoked id] else []) ++ s.log }
    else none
  | .markPublished now id =>
    if validGrantID id then some { s with store := s.store.markPublished id now } else none
  | .purgeGrants now retain => some { s with store := s.store.purgeGrants now retain }
  | .purgeNonces now retain => some { s with store := s.store.pruneNonces now retain }

def Initial (s : State) : Prop :=
  s.store = .empty ∧ (∀ i, s.redeems i = .idle) ∧ (∀ i, s.creates i = .idle) ∧ s.log = []

def machine : Machine State Action where
  Init := Initial
  step := step S

def State.created (s : State) (id : GoString) : Prop := ∃ expiresAt, .created id expiresAt ∈ s.log

instance (s : State) (id : GoString) : Decidable (s.created id) :=
  decidable_of_iff (s.log.any fun | .created id' _ => id' = id | _ => false) (by
    simp only [List.any_eq_true, State.created]
    constructor
    · rintro ⟨e, he, hid⟩
      cases e with
      | created id' expiresAt => exact ⟨expiresAt, by simpa using (of_decide_eq_true hid) ▸ he⟩
      | _ => cases hid
    · rintro ⟨expiresAt, he⟩
      exact ⟨_, he, by simp⟩)

def FreshIDs (s : State) : Action → Prop
  | .create _ draw => ¬ s.created (newGrantID draw.raw)
  | _ => True

instance (s : State) (a : Action) : Decidable (FreshIDs s a) :=
  match a with
  | .create _ _ => inferInstanceAs (Decidable (¬ _))
  | .tick _ | .enroll .. | .createStart .. | .redeemStart .. | .redeem .. | .redeemFail
      _ | .revoke ..
  | .markPublished .. | .purgeGrants .. | .purgeNonces .. => inferInstanceAs (Decidable True)

/-- How long after its expiry the main loop keeps a grant. -/
def purgeRetention : Int64 := 24 * 3600

/-- One clock that never goes back, which every operation has read by the time
it acts. -/
def Clocked (s : State) : Action → Prop
  | .tick time => s.clock ≤ time
  | .enroll now .. | .createStart _ now _ | .revoke now _ | .markPublished now _ => now ≤ s.clock
  | .redeemStart _ now _ => now.unix ≤ s.clock
  | .purgeGrants now retain | .purgeNonces now retain => now ≤ s.clock ∧ retain = purgeRetention
  | .create .. | .redeem .. | .redeemFail _ => True

instance (s : State) (a : Action) : Decidable (Clocked s a) :=
  match a with
  | .tick _ | .enroll .. | .createStart .. | .redeemStart .. | .revoke .. | .markPublished .. =>
    inferInstanceAs (Decidable (_ ≤ _))
  | .purgeGrants .. | .purgeNonces .. => inferInstanceAs (Decidable (_ ∧ _))
  | .create .. | .redeem .. | .redeemFail _ => inferInstanceAs (Decidable True)

namespace Sample

def initial : State := ⟨.empty, fun _ => .idle, fun _ => .idle, 1700000000, []⟩

def setUp : List Action :=
  [.enroll 1700000000 user (lit "host.example") 22 (publicSSHLine hostKey),
    .createStart 0 1700000000 1800] ++
  List.replicate 3 (.create 0 ⟨List.replicate 10 0, secret⟩)

def redemption : List Action := .redeemStart 0 now request :: List.replicate 6 (.redeem 0 draw)

theorem initial_reachable {S : Signer} {ok : State → Action → Prop} :
    (machine S).Reachable ok initial :=
  .of_init ⟨rfl, fun _ => rfl, fun _ => rfl, rfl⟩

end Sample

-- ---------------------------------------------------------------------------
-- What a part of a call does
-- ---------------------------------------------------------------------------

def RedeemState.Before : RedeemState → Prop
  | .idle | .started _ | .checked .. | .pruned .. | .remembered .. => True
  | _ => False

inductive RedeemStep (i : Nat) (draw : Draw) (s : Store) :
    RedeemState → RedeemState → Store → List Event → Prop
  | early {st st' s'} (hst : st.Before) (hst' : st'.Before ∨ ∃ e, st' = .done (.error e))
      (hgrants : s'.grants = s.grants) (hcerts : s'.certificates = s.certificates)
      (hhost : s'.host = s.host) : RedeemStep i draw s st st' s' []
  | claim {c h key g} (hget : s.grants.get? c.req.payload.grantID = some g)
      (hrev : g.revokedAt = none) (hexp : c.now.unix < g.expiresAt) (hred : g.redeemedAt = none)
      (hproof : S.verifyProof c.req.payload g.secret c.req.proof = .ok true) :
      RedeemStep i draw s (.remembered c h key) (.claimed c h key ⟨g.sshUser, g.expiresAt⟩)
        { s with grants := s.grants.update (Store.redeemRow c.req.payload.grantID c.now.unix
            c.req.payload.agentID (sshKeyFingerprint S.crypto key)) Store.redeemRow_id }
        [.claimed i c.req.payload.grantID c.now.unix]
  | issue {c h key claim cert}
      (hissue : issue S.ca draw.nonce
        (certRequest c.now c.req.payload key claim draw.serial) = .ok cert) :
      RedeemStep i draw s (.claimed c h key claim) (.issued c h key claim cert) s
        [.issued i c.req.payload.grantID cert]
  | stop {st e} (hst : ¬ st.Before) : RedeemStep i draw s st (.done (.error e)) s []
  | record {c h key claim cert s'}
      (hrecord : s.recordCertificate (S.certificateRow c.now c.req.payload key claim cert)
        = some s') :
      RedeemStep i draw s (.issued c h key claim cert) (.done (.ok (S.response h claim cert))) s'
        [.returned i c.req.payload.grantID cert]

theorem redeemNext_step (h : redeemNext S i draw s st = some (st', s', events)) :
    RedeemStep S i draw s st st' s' events := by
  cases st with
  | idle => cases h
  | done => cases h
  | started c =>
    simp only [redeemNext] at h
    split at h
    · cases h
      exact .early trivial (.inr ⟨_, rfl⟩) rfl rfl rfl
    · cases h
      exact .early trivial (.inl trivial) rfl rfl rfl
  | checked c hst key =>
    cases h
    exact .early trivial (.inl trivial) rfl rfl rfl
  | pruned c hst key =>
    simp only [redeemNext] at h
    split at h
    · cases h
      exact .early trivial (.inr ⟨_, rfl⟩) rfl rfl rfl
    · rename_i hins
      obtain ⟨nonces, -, rfl⟩ := Store.insertNonce_eq_some hins
      cases h
      exact .early trivial (.inl trivial) rfl rfl rfl
  | remembered c hst key =>
    simp only [redeemNext] at h
    split at h
    · cases h
      exact .early trivial (.inr ⟨_, rfl⟩) rfl rfl rfl
    · rename_i result s₁ hclaim
      split at h
      · rename_i e he
        cases h
        -- A refusal of any kind comes with a rollback.
        have hsame : s' = s := Store.claimGrant_rolled_back hclaim (by
          rintro u e rfl
          cases he)
        subst hsame
        exact .early trivial (.inr ⟨_, rfl⟩) rfl rfl rfl
      · rename_i claim hok
        cases result with
        | ok sshUser expiresAt =>
          cases hok
          cases h
          obtain ⟨g, hget, hrev, hexp, hred, hproof, rfl, rfl, rfl⟩ := Store.claimGrant_ok hclaim
          exact .claim hget hrev hexp hred hproof
        | _ => cases hok
  | claimed c hst key claim =>
    simp only [redeemNext] at h
    split at h
    · cases h
      exact .stop id
    · rename_i cert hissue
      cases h
      exact .issue hissue
  | issued c hst key claim cert =>
    simp only [redeemNext] at h
    split at h
    · cases h
      exact .stop id
    · rename_i hrecord
      cases h
      exact .record hrecord

theorem createNext_step (h : createNext S draw s st = some (st', s', events)) :
    (s' = s ∧ events = []) ∨
    (∃ now expiresAt hst, st = .counted now expiresAt hst ∧
      events = [.created (newGrantID draw.raw) expiresAt] ∧
      s.createGrant (newGrantID draw.raw) draw.secret hst.sshUser now expiresAt = some s') := by
  cases st with
  | idle => cases h
  | done => cases h
  | started now expiresAt =>
    simp only [createNext] at h
    split at h <;> cases h <;> exact .inl ⟨rfl, rfl⟩
  | hostRead now expiresAt hst =>
    simp only [createNext] at h
    split at h <;> cases h <;> exact .inl ⟨rfl, rfl⟩
  | counted now expiresAt hst =>
    simp only [createNext] at h
    split at h
    · cases h
      exact .inl ⟨rfl, rfl⟩
    · rename_i hins
      cases h
      exact .inr ⟨now, expiresAt, hst, rfl, rfl, hins⟩

-- ---------------------------------------------------------------------------
-- What an action does
-- ---------------------------------------------------------------------------

/-- Everything an action can do. -/
inductive Acts (s : State) : Action → State → Prop
  | tick {time} : Acts s (.tick time) { s with clock := time }
  | enroll {now sshUser hostname port line host}
      (h : (S.enroll now sshUser hostname port line s.store).2 = { s.store with host }) :
      Acts s (.enroll now sshUser hostname port line) { s with store := { s.store with host } }
  | refuse {i now ttlSeconds e} (hi : s.creates i = .idle) :
      Acts s (.createStart i now ttlSeconds)
        { s with creates := set s.creates i (.done (.error e)) }
  | start {i now ttlSeconds expiresAt} (hi : s.creates i = .idle)
      (hwindow : S.createWindow now ttlSeconds = .ok expiresAt) :
      Acts s (.createStart i now ttlSeconds)
        { s with creates := set s.creates i (.started now expiresAt) }
  | create {i draw st}
      (hnext : createNext S draw s.store (s.creates i) = some (st, s.store, [])) :
      Acts s (.create i draw) { s with creates := set s.creates i st }
  | insert {i draw now expiresAt h grants} (hi : s.creates i = .counted now expiresAt h)
      (hrow : s.store.grants.insert ⟨newGrantID draw.raw, draw.secret, h.sshUser, now, expiresAt,
        none, none, none, none, none⟩ = some grants) :
      Acts s (.create i draw)
        { s with
          store := { s.store with grants }
          creates := set s.creates i
            (.done (S.newGrant h (newGrantID draw.raw) draw.secret now expiresAt))
          log := .created (newGrantID draw.raw) expiresAt :: s.log }
  | redeemStart {i now req} (hi : s.redeems i = .idle) :
      Acts s (.redeemStart i now req) { s with redeems := set s.redeems i (.started ⟨now, req⟩) }
  | redeem {i draw st store es}
      (hnext : redeemNext S i draw s.store (s.redeems i) = some (st, store, es)) :
      Acts s (.redeem i draw) { s with store, redeems := set s.redeems i st, log := es ++ s.log }
  | redeemFail {i} :
      Acts s (.redeemFail i) { s with redeems := set s.redeems i (.done (.error .store)) }
  | revoke {now id} :
      Acts s (.revoke now id)
        { s with
          store := s.store.revoke id now
          log := (if s.store.revokes id then [.revoked id] else []) ++ s.log }
  | markPublished {now id} :
      Acts s (.markPublished now id) { s with store := s.store.markPublished id now }
  | purgeGrants {now retain} :
      Acts s (.purgeGrants now retain) { s with store := s.store.purgeGrants now retain }
  | purgeNonces {now retain} :
      Acts s (.purgeNonces now retain) { s with store := s.store.pruneNonces now retain }

theorem acts {S : Signer} (h : step S s a = some t) : Acts S s a t := by
  cases a with
  | tick =>
    cases h
    exact .tick
  | enroll now sshUser hostname port line =>
    cases h
    obtain ⟨host, hframe⟩ := S.enroll_frame now sshUser hostname port line s.store
    rw [hframe]
    exact .enroll hframe
  | createStart i now ttlSeconds =>
    simp only [step] at h
    split at h
    · rename_i hi
      split at h
      · cases h
        exact .refuse hi
      · rename_i hwindow
        cases h
        exact .start hi hwindow
    · cases h
  | create i draw =>
    simp only [step] at h
    split at h
    · cases h
    · rename_i hnext
      cases h
      rcases createNext_step S hnext with ⟨rfl, rfl⟩ | ⟨now, expiresAt, hst, hi, rfl, hins⟩
      · exact .create hnext
      · obtain ⟨grants, hrow, rfl⟩ := Store.createGrant_eq_some hins
        rw [hi] at hnext
        simp only [createNext, hins] at hnext
        cases hnext
        exact .insert hi hrow
  | redeemStart =>
    simp only [step] at h
    split at h <;> cases h
    rename_i hi
    exact .redeemStart hi
  | redeem =>
    simp only [step] at h
    split at h
    · cases h
    · rename_i hnext
      cases h
      exact .redeem hnext
  | redeemFail =>
    simp only [step] at h
    split at h <;> cases h
    exact .redeemFail
  | revoke =>
    simp only [step] at h
    split at h <;> cases h
    exact .revoke
  | markPublished =>
    simp only [step] at h
    split at h <;> cases h
    exact .markPublished
  | purgeGrants =>
    cases h
    exact .purgeGrants
  | purgeNonces =>
    cases h
    exact .purgeNonces

inductive GrantsStep (s : State) : Action → Table GrantRow.id → Prop
  | same {a} : GrantsStep s a s.store.grants
  | created {i draw now expiresAt h grants} (hi : s.creates i = .counted now expiresAt h)
      (hrow : s.store.grants.insert ⟨newGrantID draw.raw, draw.secret, h.sshUser, now, expiresAt,
        none, none, none, none, none⟩ = some grants) : GrantsStep s (.create i draw) grants
  | redeemed {i draw id now agentID keyFP} : GrantsStep s (.redeem i draw)
      (s.store.grants.update (Store.redeemRow id now agentID keyFP) Store.redeemRow_id)
  | revoked {now id} : GrantsStep s (.revoke now id)
      (s.store.grants.update (Store.revokeRow id now) Store.revokeRow_id)
  | published {now id} : GrantsStep s (.markPublished now id)
      (s.store.grants.update (Store.markPublishedRow id now) Store.markPublishedRow_id)
  | purged {now retain} : GrantsStep s (.purgeGrants now retain)
      (s.store.grants.delete (·.expiresAt < now - retain))

theorem grantsStep {S : Signer} (h : step S s a = some t) : GrantsStep s a t.store.grants := by
  cases acts h with
  | tick | enroll | refuse | start | create | redeemStart | redeemFail | purgeNonces => exact .same
  | insert hi hrow => exact .created hi hrow
  | @redeem i draw st store es hnext =>
    have hstep := redeemNext_step S hnext
    generalize s.redeems i = call at hstep
    cases hstep with
    | early _ _ hgrants _ _ => exact hgrants ▸ .same
    | claim => exact .redeemed
    | issue | stop => exact .same
    | record hrec => exact (Store.recordCertificate_grants hrec).1 ▸ .same
  | revoke => exact .revoked
  | markPublished => exact .published
  | purgeGrants => exact .purged

end Grantd.Signer
