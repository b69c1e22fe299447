import Grantd.Base.Machine
import Grantd.Warden.Model

/-!
# The warden as a concurrent system

Any number of `Admit` and `Attach` calls beside the one `Run` loop. A call is
where it stands in the source; a step is one section under `w.mu`, one call to
systemd, one read of the process table or of a cgroup, or one query of the
signer, with the local code up to the next one. What a step reads from outside
is in its label. Systemd and the kernel are as far modelled as the slices of
grants go: `StartScope` places the process, `StopUnit` and `cgroup.kill` empty.
-/

namespace Grantd.Warden

open Base
open Signer (LifetimeGrant)

-- ---------------------------------------------------------------------------
-- Slices
-- ---------------------------------------------------------------------------

structure Task where
  pid : Int
  scope : GoString
  deriving DecidableEq, Repr

structure Slice where
  present : Bool
  tasks : List Task
  deriving DecidableEq, Repr

abbrev Slices := GoString → Slice

def Slices.tasksOf (k : Slices) (unit : GoString) (tasks : List Task) : Slices :=
  Function.update k unit { k unit with tasks }

def Slices.start (k : Slices) (unit : GoString) : Slices :=
  Function.update k unit { k unit with present := true }

def Slices.place (k : Slices) (unit : GoString) (t : Task) : Slices :=
  Function.update k unit ⟨true, t :: (k unit).tasks⟩

def Slices.stop (k : Slices) (unit : GoString) : Slices :=
  Function.update k unit ⟨false, []⟩

def Slices.stopScope (k : Slices) (unit scope : GoString) : Slices :=
  k.tasksOf unit ((k unit).tasks.filter (·.scope != scope))

-- ---------------------------------------------------------------------------
-- Calls
-- ---------------------------------------------------------------------------

/-- What a step reads from outside: the process table, the signer, the outcome
of a systemd call or a cgroup read, and the order in which a map is ranged
over. `placed` says whether `StartScope` took effect. -/
structure Reading where
  parent : Option Proc
  answer : Answer
  ok : Bool
  placed : Bool
  proc : Option Proc
  pick : Nat
  alive : Int → Option UInt64

structure AdmitCall where
  caller : Proc
  user : GoString
  keyID : GoString
  serial : GoString
  deriving DecidableEq, Repr

inductive AdmitState
  | idle
  | called (c : AdmitCall) (grantID : GoString)
  | parent (c : AdmitCall) (grantID : GoString) (sshd : Proc)
  | allowed (c : AdmitCall) (grantID : GoString) (sshd : Proc)
  | answered (c : AdmitCall) (grantID : GoString) (sshd : Proc) (answer : Answer)
  | checked (c : AdmitCall) (grantID : GoString) (sshd : Proc) (info : LifetimeGrant)
  | admitted (user : GoString)
  | refused (e : WardenError)

structure Admission where
  call : AdmitCall
  grantID : GoString
  sshd : Proc
  info : LifetimeGrant
  created : Int
  deriving DecidableEq, Repr

structure AttachCall where
  caller : Proc
  user : GoString
  deriving DecidableEq, Repr

/-- An `Attach` that has passed every check on its admission. -/
structure Attaching where
  call : AttachCall
  sshd : Proc
  p : Pending
  takenAt : Int
  info : LifetimeGrant
  checkedAt : Int64
  deriving DecidableEq, Repr

structure Placing where
  job : Attaching
  now : Int64
  addr : Nat
  deriving DecidableEq, Repr

inductive AttachState
  | idle
  | called (c : AttachCall)
  | parent (c : AttachCall) (sshd : Proc)
  | taken (c : AttachCall) (sshd : Proc) (p : Option Pending)
  | valid (c : AttachCall) (sshd : Proc) (p : Pending) (takenAt : Int)
  | answered (c : AttachCall) (sshd : Proc) (p : Pending) (takenAt : Int) (answer : Answer)
  | checked (job : Attaching)
  | timed (job : Attaching) (now : Int64)
  | tracked (j : Placing)
  | sliceFailed (j : Placing)
  | sliced (j : Placing)
  | readBack (j : Placing) (tries : Nat)
  | lost (j : Placing)
  | placed (j : Placing)
  | attached (j : Placing) (sess : Session)
  | refused (e : WardenError)

inductive Event
  | admitted (n : Nat) (a : Admission)
  | took (i : Nat) (p : Pending)
  deriving DecidableEq, Repr

structure Shared where
  warden : Warden
  slices : Slices

variable (cfg : Config)

/-- The start of `Admit`, up to its first look at the process table. -/
def admitStart (w : Warden) (c : AdmitCall) : AdmitState :=
  if !w.ready then .refused .notReady
  else if c.caller.uid != cfg.admitUID then .refused (.denied (.admitUID c.caller.uid))
  else if c.user != cfg.sshUser then .refused (.denied (.notEnrolled c.user))
  else match parseKeyID c.keyID with
    | none => .refused (.denied (.badKeyID c.keyID))
    | some (grantID, _) =>
      if c.serial == [] then .refused (.denied .noSerial) else .called c grantID

def admitNext (n : Nat) (clock : Clock) (r : Reading) (m : Shared) :
    AdmitState → Option (AdmitState × Shared × List Event)
  | .called c grantID =>
    match sshdOf c.caller r.parent with
    | .error e => some (.refused (.denied e), m, [])
    | .ok sshd => some (.parent c grantID sshd, m, [])
  | .parent c grantID sshd =>
    match m.warden.notOpen grantID with
    | some state => some (.refused (.denied (.notOpen grantID state)), m, [])
    | none => some (.allowed c grantID sshd, m, [])
  | .allowed c grantID sshd => some (.answered c grantID sshd r.answer, m, [])
  | .answered c grantID sshd answer =>
    match checkGrant answer clock.wall grantID c.user c.serial with
    | .error e => some (.refused (.denied e), m, [])
    | .ok info => some (.checked c grantID sshd info, m, [])
  | .checked c grantID sshd info =>
    match m.warden.recordPending ⟨sshd, grantID, c.user, info.expiresAt, clock.mono, n⟩ with
    | .error e => some (.refused (.denied e), m, [])
    | .ok w => some (.admitted c.user, { m with warden := w },
        [.admitted n ⟨c, grantID, sshd, info, clock.mono⟩])
  | .idle | .admitted _ | .refused _ => none

def attachStart (w : Warden) (c : AttachCall) : AttachState :=
  if !w.ready then .refused .notReady
  else if c.caller.uid != 0 then .refused (.denied (.attachUID c.caller.uid))
  else .called c

def checkPending (now : Int) (c : AttachCall) (sshd : Proc) (p : Option Pending) :
    Except Denial Pending :=
  match p with
  | none => throw (.notAdmitted sshd.pid)
  | some p => do
    ensure (p.sshd.sameProcess sshd) (.recycled sshd.pid)
    ensure (p.user == c.user) (.admittedUser p.user c.user)
    ensure (now - p.created ≤ cfg.pendingTTL) (.stale sshd.pid (now - p.created))
    pure p

def Placing.unit (j : Placing) : GoString := sliceUnit cfg j.job.p.grantID
def Placing.scope (j : Placing) : GoString := scopeUnit cfg j.job.p.grantID j.job.sshd.pid
def Placing.want (j : Placing) : GoString :=
  sliceCgroup cfg j.job.p.grantID ++ lit "/" ++ j.scope cfg

def Placing.session (j : Placing) : Session :=
  ⟨j.job.sshd.pid, j.job.sshd.startTime, j.scope cfg, j.want cfg, j.now⟩

def attachNext (i : Nat) (clock : Clock) (r : Reading) (m : Shared) :
    AttachState → Option (AttachState × Shared × List Event)
  | .called c =>
    match sshdOf c.caller r.parent with
    | .error e => some (.refused (.denied e), m, [])
    | .ok sshd => some (.parent c sshd, m, [])
  | .parent c sshd =>
    let (p, w) := m.warden.takePending sshd.pid
    some (.taken c sshd p, { m with warden := w }, (p.map (.took i)).toList)
  | .taken c sshd p =>
    match checkPending cfg clock.mono c sshd p with
    | .error e => some (.refused (.denied e), m, [])
    | .ok p => some (.valid c sshd p clock.mono, m, [])
  | .valid c sshd p takenAt => some (.answered c sshd p takenAt r.answer, m, [])
  | .answered c sshd p takenAt answer =>
    match checkGrant answer clock.wall p.grantID c.user [] with
    | .error e => some (.refused (.denied e), m, [])
    | .ok info => some (.checked ⟨c, sshd, p, takenAt, info, clock.wall⟩, m, [])
  | .checked job =>
    if timeLeft job.info.expiresAt clock.wall ≤ 0 then
      some (.refused (.denied (.noTimeLeft job.p.grantID)), m, [])
    else some (.timed job clock.wall, m, [])
  | .timed job now =>
    match m.warden.track job.p.grantID job.info.expiresAt clock.mono
        (timeLeft job.info.expiresAt now) with
    | .error e => some (.refused (.denied e), m, [])
    | .ok (a, w) => some (.tracked ⟨job, now, a⟩, { m with warden := w }, [])
  | .tracked j =>
    if r.ok then some (.sliced j, { m with slices := m.slices.start (j.unit cfg) }, [])
    else some (.sliceFailed j, m, [])
  | .sliceFailed j =>
    if (m.slices (j.unit cfg)).present then some (.sliced j, m, [])
    else some (.refused (.denied (.cannotCreate (j.unit cfg))), m, [])
  | .sliced j =>
    let slices := if r.placed then m.slices.place (j.unit cfg) ⟨j.job.sshd.pid, j.scope cfg⟩
      else m.slices
    if r.ok then some (.readBack j 0, { m with slices }, [])
    else some (.refused (.denied (.cannotCreate (j.scope cfg))), { m with slices }, [])
  | .readBack j tries =>
    match r.proc with
    | none => some (.lost j, m, [])
    | some cur =>
      if cur.cgroup == j.want cfg then some (.placed j, m, [])
      else if tries + 1 < 60 then some (.readBack j (tries + 1), m, [])
      else some (.lost j, m, [])
  | .lost j =>
    some (.refused (.denied (.notPlaced j.job.sshd.pid (j.want cfg))),
      { m with slices := m.slices.stopScope (j.unit cfg) (j.scope cfg) }, [])
  | .placed j =>
    match m.warden.attachSession j.addr j.job.p.grantID (j.session cfg) with
    | .error e => some (.refused (.denied e), m, [])
    | .ok w => some (.attached j (j.session cfg), { m with warden := w }, [])
  | .idle | .attached .. | .refused _ => none

-- ---------------------------------------------------------------------------
-- The run loop
-- ---------------------------------------------------------------------------

inductive LoopState
  | idle
  | enforcing (now : Int64) (mono : Int)
  | enforced
  | polling (todo : List GoString)
  | polled (todo : List GoString) (id : GoString) (answer : Answer)
  | expire
  | expiring (now : Int)
  | prune
  | collect
  | closing (todo : List Nat)
  | sent (todo : List Nat) (a : Nat) (elapsed : Int)
  | signal (todo : List Nat) (a : Nat) (elapsed : Int)
  | signalled (todo : List Nat) (a : Nat)
  | list (todo : List Nat) (a : Nat)
  | listed (todo : List Nat) (a : Nat) (pids : List Int)
  | finalize (todo : List Nat) (a : Nat)
  | stopped (todo : List Nat) (a : Nat)

def Shared.unit (m : Shared) (a : Nat) : GoString := sliceUnit cfg (m.warden.heap a).id

structure Kill where
  addr : Nat
  ok : Bool
  deriving DecidableEq, Repr

/-- The next step of `Run`, the time of its last poll, and what it has written to
a `cgroup.kill`. -/
def loopNext (clock : Clock) (r : Reading) (m : Shared) (lastPoll : Option Int) :
    LoopState → Option (LoopState × Option Int × Shared × Option Kill)
  | .idle => some (.enforcing clock.wall clock.mono, lastPoll, m, none)
  | .enforcing now mono =>
    some (.enforced, lastPoll, { m with warden := m.warden.enforceDeadlines now mono }, none)
  | .enforced =>
    if ∃ last ∈ lastPoll, clock.mono - last < cfg.poll then some (.expire, lastPoll, m, none)
    else some (.polling m.warden.openIDs, some clock.mono, m, none)
  | .polling [] => some (.expire, lastPoll, m, none)
  | .polling (id :: ids) =>
    match (id :: ids)[r.pick]? with
    | none => none
    | some id' => some (.polled ((id :: ids).eraseIdx r.pick) id' r.answer, lastPoll, m, none)
  | .polled todo id answer =>
    some (.polling todo, lastPoll, { m with warden := m.warden.applyPoll clock id answer }, none)
  | .expire => some (.expiring clock.mono, lastPoll, m, none)
  | .expiring now =>
    some (.prune, lastPoll, { m with warden := m.warden.expirePending cfg now }, none)
  | .prune => some (.collect, lastPoll, { m with warden := m.warden.pruneSessions r.alive }, none)
  | .collect => some (.closing m.warden.closingAddrs, lastPoll, m, none)
  | .closing [] => some (.idle, lastPoll, { m with warden := m.warden.forget clock.mono }, none)
  | .closing (a :: as) =>
    match (a :: as)[r.pick]? with
    | none => none
    | some a' =>
      let (elapsed, w) := m.warden.beginTerm clock.mono a'
      some (.sent ((a :: as).eraseIdx r.pick) a' elapsed, lastPoll, { m with warden := w }, none)
  | .sent todo a elapsed =>
    if (m.slices (m.unit cfg a)).present then some (.signal todo a elapsed, lastPoll, m, none)
    else some (.finalize todo a, lastPoll, m, none)
  | .signal todo a elapsed =>
    -- SIGTERM leaves it to the tasks whether and when they exit.
    if elapsed < cfg.termGrace then some (.signalled todo a, lastPoll, m, none)
    else some (.signalled todo a, lastPoll, m, some ⟨a, r.ok⟩)
  | .signalled todo a =>
    if !r.ok then some (.closing todo, lastPoll, m, none)
    else if (m.slices (m.unit cfg a)).tasks = [] then some (.finalize todo a, lastPoll, m, none)
    else some (.list todo a, lastPoll, m, none)
  | .list todo a =>
    some (.listed todo a ((m.slices (m.unit cfg a)).tasks.map (·.pid)), lastPoll, m, none)
  | .listed todo a pids =>
    some (.closing todo, lastPoll, { m with warden := m.warden.setRemaining a pids }, none)
  | .finalize todo a =>
    some (.stopped todo a, lastPoll, { m with slices := m.slices.stop (m.unit cfg a) }, none)
  | .stopped todo a =>
    some (.closing todo, lastPoll, { m with warden := m.warden.markClosed clock.mono a }, none)

-- ---------------------------------------------------------------------------
-- The machine
-- ---------------------------------------------------------------------------

def Shared.kill (m : Shared) : Option Kill → Shared
  | some ⟨a, true⟩ => { m with slices := m.slices.tasksOf (m.unit cfg a) [] }
  | some ⟨_, false⟩ | none => m

@[simp] theorem Shared.kill_none (m : Shared) : m.kill cfg none = m := rfl

@[simp] theorem Shared.kill_warden (m : Shared) (k : Option Kill) :
    (m.kill cfg k).warden = m.warden := by
  unfold Shared.kill
  split <;> rfl

structure State where
  shared : Shared
  admits : Nat → AdmitState
  attaches : Nat → AttachState
  loop : LoopState
  lastPoll : Option Int
  clock : Clock
  log : List Event

inductive Action
  | tick (c : Clock)
  | admitStart (n : Nat) (c : AdmitCall)
  | admitStep (n : Nat) (r : Reading)
  | attachStart (i : Nat) (c : AttachCall)
  | attach (i : Nat) (r : Reading)
  | run (r : Reading)
  /-- A task exits, a task forks, systemd collects an empty slice. -/
  | exit (unit : GoString) (pid : Int)
  | fork (unit : GoString) (parent child : Int)
  | collect (unit : GoString)

def step (s : State) : Action → Option State
  | .tick c => some { s with clock := c }
  | .admitStart n c =>
    match s.admits n with
    | .idle => some { s with
        admits := Function.update s.admits n (admitStart cfg s.shared.warden c) }
    | _ => none
  | .admitStep n r =>
    match admitNext n s.clock r s.shared (s.admits n) with
    | none => none
    | some (st, shared, events) => some { s with
        admits := Function.update s.admits n st, shared, log := events ++ s.log }
  | .attachStart i c =>
    match s.attaches i with
    | .idle => some { s with
        attaches := Function.update s.attaches i (attachStart s.shared.warden c) }
    | _ => none
  | .attach i r =>
    match attachNext cfg i s.clock r s.shared (s.attaches i) with
    | none => none
    | some (st, shared, events) => some { s with
        attaches := Function.update s.attaches i st, shared, log := events ++ s.log }
  | .run r =>
    match loopNext cfg s.clock r s.shared s.lastPoll s.loop with
    | none => none
    | some (loop, lastPoll, shared, kill) =>
      some { s with loop, lastPoll, shared := shared.kill cfg kill }
  | .exit unit pid => some { s with shared := { s.shared with
      slices := s.shared.slices.tasksOf unit
        ((s.shared.slices unit).tasks.filter (·.pid ≠ pid)) } }
  | .fork unit parent child =>
    match (s.shared.slices unit).tasks.find? (·.pid = parent) with
    | none => none
    | some t => some { s with shared := { s.shared with
        slices := s.shared.slices.place unit { t with pid := child } } }
  | .collect unit =>
    if (s.shared.slices unit).tasks = [] then
      some { s with shared := { s.shared with slices := s.shared.slices.stop unit } }
    else none

/-- What `Reconcile` leaves behind: every object is in the map, under its own
id, Open with a deadline or Closing; every slice with a task is tracked; no
admission is pending and no call has begun. -/
structure Initial (s : State) : Prop where
  ready : s.shared.warden.ready = true
  entries : ∀ e ∈ s.shared.warden.grants.rows, e.addr < s.shared.warden.next ∧
    (s.shared.warden.heap e.addr).id = e.id
  objects : ∀ a < s.shared.warden.next, s.shared.warden.mapped a = true ∧
    ((s.shared.warden.heap a).state = .opened ∧ (s.shared.warden.heap a).deadlineMono.isSome ∨
      (s.shared.warden.heap a).state = .closing)
  slices : ∀ unit, (s.shared.slices unit).tasks ≠ [] →
    ∃ e ∈ s.shared.warden.grants.rows, unit = sliceUnit cfg e.id
  pending : s.shared.warden.pending = .empty
  admits : ∀ n, s.admits n = .idle
  attaches : ∀ i, s.attaches i = .idle
  loop : s.loop = .idle
  log : s.log = []

def machine : Machine State Action where
  Init := Initial cfg
  step := step cfg

end Grantd.Warden
