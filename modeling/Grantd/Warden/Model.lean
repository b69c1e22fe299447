import Grantd.Signer.Api
import Mathlib.Data.Set.Function

/-!
# The warden's data and its critical sections

go/warden/warden.go, proc.go and keyid.go. Grant objects live on a heap,
because a call keeps a pointer to one across lock releases and the map can lose
it meanwhile; what the source does under `w.mu` is one function here. Logging
and the state file are left out.
-/

namespace Grantd.Warden

open Base
open Signer (LifetimeGrant)

/-- One reading of `time.Now`: the wall clock in Unix seconds and the monotonic
clock in nanoseconds. -/
structure Clock where
  wall : Int64
  mono : Int
  deriving DecidableEq, Repr

def second : Int := 1000000000

/-- The part of `Config` that decides something. Durations are nanoseconds. -/
structure Config where
  sshUser : GoString
  slice : GoString
  admitUID : Int
  termGrace : Int
  poll : Int
  pendingTTL : Int

structure Proc where
  pid : Int
  ppid : Int
  uid : Int
  startTime : UInt64
  exe : GoString
  cgroup : GoString
  deriving DecidableEq, Repr

def Proc.sameProcess (p other : Proc) : Bool := p.pid == other.pid && p.startTime == other.startTime

def Proc.isSSHD (p : Proc) : Bool := p.exe == lit "sshd" || p.exe == lit "sshd-session"

inductive GrantState
  | opened
  | closing
  | closed
  deriving DecidableEq, Repr

structure Session where
  pid : Int
  startTime : UInt64
  scope : GoString
  cgroup : GoString
  since : Int64
  deriving DecidableEq, Repr

/-- `Grant`. The monotonic deadline is `none` while the field has its zero
value; `closingSince` has a meaning once `termSent` is set. -/
structure Grant where
  id : GoString
  deadline : Int64
  state : GrantState
  reason : GoString
  sessions : Table Session.pid
  remaining : List Int
  deadlineMono : Option Int
  termSent : Bool
  closingSince : Int

/-- `pending`, with the number of the `Admit` call that recorded it. -/
structure Pending where
  sshd : Proc
  grantID : GoString
  user : GoString
  deadline : Int64
  created : Int
  call : Nat
  deriving DecidableEq, Repr

def Pending.pid (p : Pending) : Int := p.sshd.pid

/-- Why a call is refused. A constructor carries what the text prints. -/
inductive Denial
  | admitUID (uid : Int)
  | notEnrolled (user : GoString)
  | badKeyID (keyID : GoString)
  | noSerial
  | noParent (ppid : Int)
  | parentUID (pid uid : Int)
  | parentExe (pid : Int) (exe : GoString)
  | notOpen (grantID : GoString) (state : GrantState)
  | unknownGrant (grantID : GoString)
  | cannotVerify (grantID : GoString)
  | otherUser (grantID want user : GoString)
  | revoked (grantID : GoString)
  | expired (grantID : GoString) (ago : Int64)
  | notRedeemed (grantID : GoString)
  | otherSerial (serial grantID : GoString)
  | attachUID (uid : Int)
  | notAdmitted (pid : Int)
  | recycled (pid : Int)
  | admittedUser (admitted user : GoString)
  | stale (pid age : Int)
  | noTimeLeft (grantID : GoString)
  | cannotCreate (unit : GoString)
  | notPlaced (pid : Int) (want : GoString)
  | closedWhileAttaching (grantID : GoString)
  deriving DecidableEq, Repr

inductive WardenError
  | notReady
  | denied (reason : Denial)
  deriving DecidableEq, Repr

inductive SourceError
  | unknown
  | other
  deriving DecidableEq, Repr

abbrev Answer := Except SourceError LifetimeGrant

-- ---------------------------------------------------------------------------
-- Checks on data alone
-- ---------------------------------------------------------------------------

/-- `ParseKeyID`; `none` is `ErrBadKeyID`. -/
def parseKeyID (keyID : GoString) : Option (GoString × GoString) :=
  match keyID.splitOn 0x3A with
  | [tag, grantID, agentID] =>
    if tag == lit "grantd" && Protocol.validGrantID grantID && Protocol.validAgentID agentID then
      some (grantID, agentID)
    else none
  | _ => none

/-- `sshdOf`; `parent` is what `ReadProc` finds under the caller's parent pid. -/
def sshdOf (caller : Proc) (parent : Option Proc) : Except Denial Proc :=
  match parent with
  | none => throw (.noParent caller.ppid)
  | some p => do
    let parent := { p with pid := caller.ppid }
    ensure (parent.uid == 0) (.parentUID parent.pid parent.uid)
    ensure parent.isSSHD (.parentExe parent.pid parent.exe)
    pure parent

def checkGrant (answer : Answer) (now : Int64) (grantID user serial : GoString) :
    Except Denial LifetimeGrant :=
  match answer with
  | .error .unknown => throw (.unknownGrant grantID)
  | .error .other => throw (.cannotVerify grantID)
  | .ok g => do
    ensure (g.sshUser == user) (.otherUser grantID g.sshUser user)
    ensure g.revokedAt.isNone (.revoked grantID)
    ensure (now < g.expiresAt) (.expired grantID (now - g.expiresAt))
    ensure g.redeemedAt.isSome (.notRedeemed grantID)
    ensure (serial == [] || g.certificateSerial == serial) (.otherSerial serial grantID)
    pure g

theorem sshdOf_eq_ok (h : sshdOf caller parent = .ok sshd) : sshd.pid = caller.ppid := by
  unfold sshdOf at h
  split at h
  · cases h
  · simp only [bind_eq_ok, ensure_eq_ok, pure_eq_ok] at h
    obtain ⟨-, -, -, -, rfl⟩ := h
    rfl

theorem checkGrant_eq_ok {grantID user serial : GoString} :
    checkGrant answer now grantID user serial = .ok g ↔
      answer = .ok g ∧ g.sshUser = user ∧ g.revokedAt = none ∧ now < g.expiresAt ∧
        g.redeemedAt.isSome = true ∧ (serial = [] ∨ g.certificateSerial = serial) := by
  unfold checkGrant
  split
  · exact iff_of_false nofun (fun h => nomatch h.1)
  · exact iff_of_false nofun (fun h => nomatch h.1)
  · simp only [bind_eq_ok, ensure_eq_ok, pure_eq_ok, beq_iff_eq, Option.isNone_iff_eq_none,
      decide_eq_true_eq, Bool.or_eq_true]
    constructor
    · rintro ⟨-, huser, -, hrev, -, hexp, -, hred, -, hserial, rfl⟩
      exact ⟨rfl, huser, hrev, hexp, hred, hserial⟩
    · rintro ⟨heq, huser, hrev, hexp, hred, hserial⟩
      cases heq
      exact ⟨(), huser, (), hrev, (), hexp, (), hred, (), hserial, rfl⟩

/-- `time.Duration(expiresAt - now.Unix()) * time.Second`, as an `int64`. -/
def timeLeft (expiresAt now : Int64) : Int64 := (expiresAt - now) * 1000000000

/-- `strings.TrimSuffix(slice, ".slice")`. -/
def sliceStem (slice : GoString) : GoString :=
  if (lit ".slice").isSuffixOf slice then slice.take (slice.length - 6) else slice

section
variable (cfg : Config)

def sliceUnit (grantID : GoString) : GoString :=
  sliceStem cfg.slice ++ lit "-" ++ grantID ++ lit ".slice"

def sliceCgroup (grantID : GoString) : GoString :=
  lit "/" ++ cfg.slice ++ lit "/" ++ sliceUnit cfg grantID

def formatInt (n : Int) : GoString :=
  let digits := (Nat.toDigits 10 n.natAbs).map fun c => UInt8.ofNat c.toNat
  if n < 0 then lit "-" ++ digits else digits

def scopeUnit (grantID : GoString) (pid : Int) : GoString :=
  sliceStem cfg.slice ++ lit "-" ++ grantID ++ lit "-" ++ formatInt pid ++ lit ".scope"

end

end Grantd.Warden

namespace Grantd

open Base Warden
open Signer (LifetimeGrant)

/-- An entry of the map `w.grants`: the address of the object under an id. -/
structure Warden.Entry where
  id : GoString
  addr : Nat
  deriving DecidableEq, Repr

/-- What `w.mu` guards. -/
structure Warden where
  heap : Nat → Grant
  next : Nat
  grants : Table Entry.id
  pending : Table Pending.pid
  ready : Bool

namespace Warden

variable (cfg : Config)

def addr? (w : Warden) (id : GoString) : Option Nat := (w.grants.get? id).map (·.addr)

def mapped (w : Warden) (a : Nat) : Bool := w.grants.rows.any (·.addr == a)

def write (w : Warden) (a : Nat) (g : Grant) : Warden :=
  { w with heap := Function.update w.heap a g }

def forEach (w : Warden) (f : Grant → Grant) : Warden :=
  { w with heap := fun a => if w.mapped a then f (w.heap a) else w.heap a }

def notOpen (w : Warden) (id : GoString) : Option GrantState :=
  match w.addr? id with
  | none => none
  | some a => if (w.heap a).state = .opened then none else some (w.heap a).state

-- ---------------------------------------------------------------------------
-- Admit and Attach
-- ---------------------------------------------------------------------------

/-- The end of `Admit`. -/
def recordPending (w : Warden) (p : Pending) : Except Denial Warden :=
  match w.notOpen p.grantID with
  | some state => throw (.notOpen p.grantID state)
  | none => pure { w with pending := w.pending.put p }

def takePending (w : Warden) (pid : Int) : Option Pending × Warden :=
  (w.pending.get? pid, { w with pending := w.pending.delete (·.pid = pid) })

def setDeadline (expiresAt : Int64) (mono : Int) (remaining : Int64) (g : Grant) : Grant :=
  { g with deadline := expiresAt, deadlineMono := some (mono + remaining.toInt) }

def newGrant (id : GoString) : Grant where
  id
  deadline := 0
  state := .opened
  reason := []
  sessions := .empty
  remaining := []
  deadlineMono := none
  termSent := false
  closingSince := 0

/-- `Attach` finds or makes the grant's object and sets its deadlines. -/
def track (w : Warden) (id : GoString) (expiresAt : Int64) (mono : Int) (remaining : Int64) :
    Except Denial (Nat × Warden) :=
  match w.addr? id with
  | some a =>
    if (w.heap a).state = .opened then
      pure (a, w.write a (setDeadline expiresAt mono remaining (w.heap a)))
    else throw (.notOpen id (w.heap a).state)
  | none =>
    pure (w.next, { w with
      heap := Function.update w.heap w.next (setDeadline expiresAt mono remaining (newGrant id))
      next := w.next + 1
      grants := w.grants.put ⟨id, w.next⟩ })

/-- The end of `Attach`, on the object it has kept a pointer to. -/
def attachSession (w : Warden) (a : Nat) (grantID : GoString) (sess : Session) :
    Except Denial Warden :=
  if (w.heap a).state = .opened then
    pure (w.write a { w.heap a with sessions := (w.heap a).sessions.put sess })
  else throw (.closedWhileAttaching grantID)

-- ---------------------------------------------------------------------------
-- The run loop
-- ---------------------------------------------------------------------------

def closeLocked (reason : GoString) (g : Grant) : Grant :=
  if g.state = .opened then { g with state := .closing, reason, termSent := false } else g

def enforceDeadline (now : Int64) (mono : Int) (g : Grant) : Grant :=
  if g.state = .opened ∧ ((∃ d ∈ g.deadlineMono, d ≤ mono) ∨ g.deadline ≤ now) then
    closeLocked (lit "deadline reached") g
  else g

def enforceDeadlines (w : Warden) (now : Int64) (mono : Int) : Warden :=
  w.forEach (enforceDeadline now mono)

def openIDs (w : Warden) : List GoString :=
  (w.grants.rows.filter fun e => (w.heap e.addr).state = .opened).map (·.id)

def pollGrant (c : Clock) (answer : Answer) (g : Grant) : Grant :=
  match answer with
  | .error .unknown => closeLocked (lit "signer no longer knows this grant") g
  | .error .other => g
  | .ok info =>
    if info.revokedAt.isSome then closeLocked (lit "revoked") g
    else if info.expiresAt ≤ c.wall then closeLocked (lit "expired") g
    else if info.expiresAt < g.deadline then
      setDeadline info.expiresAt c.mono (timeLeft info.expiresAt c.wall) g
    else g

/-- What `pollSigner` does with one answer. -/
def applyPoll (w : Warden) (c : Clock) (id : GoString) (answer : Answer) : Warden :=
  match w.addr? id with
  | none => w
  | some a =>
    if (w.heap a).state = .opened then w.write a (pollGrant c answer (w.heap a)) else w

def expirePending (w : Warden) (now : Int) : Warden :=
  { w with pending := w.pending.delete fun p => cfg.pendingTTL < now - p.created }

/-- `pruneSessions`; `alive` is the start time of the process with a pid. -/
def pruneSessions (w : Warden) (alive : Int → Option UInt64) : Warden :=
  w.forEach fun g => { g with
    sessions := g.sessions.delete fun sess => alive sess.pid ≠ some sess.startTime }

def closingAddrs (w : Warden) : List Nat :=
  (w.grants.rows.filter fun e => (w.heap e.addr).state = .closing).map (·.addr)

/-- The first section of `terminate`, and the time since the first pass. -/
def beginTerm (w : Warden) (now : Int) (a : Nat) : Int × Warden :=
  let g := w.heap a
  let g := if g.termSent then g else { g with termSent := true, closingSince := now }
  (now - g.closingSince, w.write a g)

def setRemaining (w : Warden) (a : Nat) (pids : List Int) : Warden :=
  w.write a { w.heap a with remaining := pids }

/-- The section of `finalize`. -/
def markClosed (w : Warden) (now : Int) (a : Nat) : Warden :=
  w.write a { w.heap a with
    state := .closed, remaining := [], closingSince := now, sessions := .empty }

def forget (w : Warden) (now : Int) : Warden :=
  { w with grants := w.grants.delete fun e =>
      (w.heap e.addr).state = .closed ∧ 30 * second < now - (w.heap e.addr).closingSince }

end Warden

end Grantd
