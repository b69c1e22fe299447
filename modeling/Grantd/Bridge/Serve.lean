import Grantd.Base.Machine
import Grantd.Base.Pipe
import Grantd.Base.Slots
import Grantd.Canonical

/-!
# The bridge on the host

go/cmd/grantd-bridge: `serve` takes one of 64 places, dials sshd, accepts the
WebSocket and copies both ways until one direction is over; then it closes both
ends and gives the place back, with the other copy still to find out. A session
is where its handler stands, with its two loops; what comes from the client and
from sshd, what they take, and when they break is up to them. By itself a loop
fails only at an end that the handler has closed, or once its source has failed.
Of the WebSocket library the model has that binary messages come in order, that
one of another type or above the limit ends the stream, and that a write is one
message.
-/

namespace Grantd.Bridge

open Base

def maxMessageBytes : Nat := 1048576

def maxSessions : Nat := 64

/-- The buffer of `io.Copy`. -/
def bufferBytes : Nat := 32768

-- ---------------------------------------------------------------------------
-- One session
-- ---------------------------------------------------------------------------

/-- `idle` has no handler yet, and `refused` never took a place. -/
inductive Stage
  | idle
  | refused
  | dialing
  | upgrading
  | piping
  | closing
  | closingDown
  | closed
  | returned
  deriving DecidableEq, Repr

def Stage.running : Stage → Bool
  | .dialing | .upgrading | .piping | .closing | .closingDown | .closed => true
  | .idle | .refused | .returned => false

/-- `up` copies from the client to sshd and `down` back, once `copying`;
`messages` is what was sent to the client, and `status` an HTTP answer that came
instead. -/
structure Session where
  stage : Stage
  status : Option Nat
  upstream : Bool
  socket : Bool
  copying : Bool
  up : Pipe UInt8
  down : Pipe UInt8
  messages : List Bytes

def Session.initial : Session := ⟨.idle, none, false, false, false, .empty, .empty, []⟩

inductive SessionEvent
  | dial (ok : Bool)
  | accept (ok : Bool)
  /-- Of a message above the limit, the first `n` bytes are read. -/
  | message (binary : Bool) (payload : Bytes) (n : Nat)
  | hangup (e : Ending)
  | output (bytes : Bytes)
  | quit (e : Ending)
  /-- A write to sshd fails after `k` bytes. -/
  | sshdBreaks (k : Nat)
  /-- A write to the client fails. -/
  | clientBreaks
  | upRead (n : Nat)
  | upWrite
  | upWriteFail
  | upReadFail
  | upStop
  | downRead (n : Nat)
  | downWrite
  | downWriteFail
  | downReadFail
  | downStop
  /-- The receive from `errc`. -/
  | wake
  | closeUpstream
  | closeDown

/-- The steps of the handler and its loops that take nothing of the client or of
sshd: what one of them is to read is there, and nobody has to take what is
written. -/
def SessionEvent.own : SessionEvent → Bool
  | .upRead _ | .upWriteFail | .upReadFail | .upStop | .downRead _ | .downWriteFail
  | .downReadFail | .downStop | .wake | .closeUpstream | .closeDown => true
  | .dial _ | .accept _ | .message .. | .hangup _ | .output _ | .quit _ | .sshdBreaks _
  | .clientBreaks | .upWrite | .downWrite => false

namespace Session

def upStep (s : Session) (op : Pipe.Op UInt8) : Option Session :=
  (s.up.step bufferBytes op).map fun up => { s with up }

def downStep (s : Session) (op : Pipe.Op UInt8) : Option Session :=
  (s.down.step bufferBytes op).map fun down => { s with down }

def step (s : Session) : SessionEvent → Option Session
  | .dial ok =>
    if s.stage = .dialing then
      if ok then some { s with stage := .upgrading, upstream := true }
      else some { s with stage := .closed, status := some 503 }
    else none
  | .accept ok =>
    if s.stage = .upgrading then
      if ok then some { s with stage := .piping, socket := true, copying := true }
      -- The deferred close of the connection to sshd.
      else some { s with stage := .closed, upstream := false }
    else none
  | .message binary payload n =>
    if s.socket then
      if binary then
        if payload.length ≤ maxMessageBytes then s.upStep (.feed payload)
        else (s.upStep (.feed (payload.take n))).bind (·.upStep (.finish .failed))
      else s.upStep (.finish .failed)
    else none
  | .hangup e => if s.socket then s.upStep (.finish e) else none
  | .output bytes => if s.upstream then s.downStep (.feed bytes) else none
  | .quit e => if s.upstream then s.downStep (.finish e) else none
  | .sshdBreaks k => if s.copying ∧ s.upstream then s.upStep (.writeFail k) else none
  -- Of a message that was not written to its end the client has nothing.
  | .clientBreaks => if s.copying ∧ s.socket then s.downStep (.writeFail 0) else none
  | .upRead n => if s.copying ∧ s.socket then s.upStep (.read n) else none
  | .upWrite => if s.copying ∧ s.upstream then s.upStep .write else none
  | .upWriteFail => if s.copying ∧ !s.upstream then s.upStep (.writeFail 0) else none
  | .upReadFail =>
    if s.copying ∧ (!s.socket ∨ s.up.ended = some .failed) then s.upStep .readFail else none
  | .upStop => if s.copying ∧ s.socket then s.upStep .stop else none
  | .downRead n => if s.copying ∧ s.upstream then s.downStep (.read n) else none
  | .downWrite =>
    if s.copying ∧ s.socket then
      (s.downStep .write).map fun t => { t with messages := s.messages ++ [s.down.hand] }
    else none
  | .downWriteFail => if s.copying ∧ !s.socket then s.downStep (.writeFail 0) else none
  | .downReadFail =>
    if s.copying ∧ (!s.upstream ∨ s.down.ended = some .failed) then s.downStep .readFail else none
  | .downStop => if s.copying ∧ s.upstream then s.downStep .stop else none
  | .wake =>
    if s.stage = .piping ∧ (s.up.result.isSome ∨ s.down.result.isSome) then
      some { s with stage := .closing }
    else none
  | .closeUpstream =>
    if s.stage = .closing then some { s with stage := .closingDown, upstream := false } else none
  | .closeDown =>
    if s.stage = .closingDown then some { s with stage := .closed, socket := false } else none

end Session

-- ---------------------------------------------------------------------------
-- The server
-- ---------------------------------------------------------------------------

/-- `slots` is `sem`, whose tasks are the numbers of the sessions. -/
structure Server where
  slots : Slots Nat
  sessions : Nat → Session
  next : Nat

inductive Event
  | request
  | session (n : Nat) (e : SessionEvent)
  /-- The handler in place `k` returns: the deferred receive. -/
  | release (k : Nat)

def Server.set (s : Server) (n : Nat) (x : Session) : Server :=
  { s with sessions := Function.update s.sessions n x }

def step (s : Server) : Event → Option Server
  | .request =>
    match s.slots.acquire maxSessions s.next with
    | some slots => some { s.set s.next { Session.initial with stage := .dialing } with
        slots, next := s.next + 1 }
    | none =>
      some { s.set s.next { Session.initial with stage := .refused, status := some 503 } with
        next := s.next + 1 }
  | .session n e => ((s.sessions n).step e).map (s.set n)
  | .release k =>
    match s.slots.tasks[k]? with
    | some n =>
      if (s.sessions n).stage = .closed then
        (s.slots.release k).map fun slots =>
          { s.set n { s.sessions n with stage := .returned } with slots }
      else none
    | none => none

def server : Machine Server Event where
  Init s := s.slots = .empty ∧ (∀ n, s.sessions n = .initial) ∧ s.next = 0
  step := step

-- ---------------------------------------------------------------------------
-- What a session keeps
-- ---------------------------------------------------------------------------

namespace Session

/-- The invariant of a session: its ends are open only at the stages that have
them open, its loops copy, and the messages are what the second loop wrote. -/
structure Sound (s : Session) : Prop where
  copying : s.stage = .piping → s.copying = true
  upstream : s.upstream = true → s.stage = .upgrading ∨ s.stage = .piping ∨ s.stage = .closing
  socket : s.socket = true → s.stage = .piping ∨ s.stage = .closing ∨ s.stage = .closingDown
  up : s.up.Sound bufferBytes
  down : s.down.Sound bufferBytes
  messages : s.messages.flatten = s.down.written
  sizes : ∀ m ∈ s.messages, m ≠ [] ∧ m.length ≤ bufferBytes

theorem sound_initial {stage : Stage} (hstage : stage ≠ .piping) (status : Option Nat) :
    Sound { initial with stage, status } where
  copying h := absurd h hstage
  upstream := by simp [initial]
  socket := by simp [initial]
  up := Pipe.sound_empty
  down := Pipe.sound_empty
  messages := rfl
  sizes := by simp [initial]

variable {s t : Session}

theorem Sound.upStep (hs : s.Sound) (h : s.upStep op = some t) : t.Sound := by
  obtain ⟨up, hup, rfl⟩ := Option.map_eq_some_iff.mp h
  exact ⟨hs.copying, hs.upstream, hs.socket, hs.up.step hup, hs.down, hs.messages, hs.sizes⟩

theorem Sound.downStep (hs : s.Sound) (hop : op.quiet = true) (h : s.downStep op = some t) :
    t.Sound := by
  obtain ⟨down, hdown, rfl⟩ := Option.map_eq_some_iff.mp h
  exact ⟨hs.copying, hs.upstream, hs.socket, hs.up, hs.down.step hdown,
    hs.messages.trans (Pipe.written_of_quiet hop hdown).symm, hs.sizes⟩

theorem Sound.downWrite (hs : s.Sound) (h : s.downStep .write = some t) :
    Sound { t with messages := s.messages ++ [s.down.hand] } := by
  obtain ⟨down, hdown, rfl⟩ := Option.map_eq_some_iff.mp h
  have hsound := hs.down.step hdown
  simp only [Pipe.step] at hdown
  split at hdown <;> cases hdown
  rename_i hwrite
  refine ⟨hs.copying, hs.upstream, hs.socket, hs.up, hsound, by simp [hs.messages], fun m hm => ?_⟩
  rcases List.mem_append.mp hm with hold | hnew
  · exact hs.sizes m hold
  · cases List.mem_singleton.mp hnew
    exact ⟨by simpa using hwrite.2, hs.down.hand⟩

theorem Sound.step (hs : s.Sound) (h : s.step e = some t) : t.Sound := by
  cases e with
  | dial ok =>
    simp only [Session.step] at h
    split at h
    · rename_i hstage
      have hup : s.upstream = false := by
        by_contra hopen
        simpa [hstage] using hs.upstream (by simpa using hopen)
      have hsocket : s.socket = false := by
        by_contra hopen
        simpa [hstage] using hs.socket (by simpa using hopen)
      split at h <;> cases h
      · exact ⟨by simp, fun _ => .inl rfl, by simp [hsocket], hs.up, hs.down, hs.messages, hs.sizes⟩
      · exact ⟨by simp, by simp [hup], by simp [hsocket], hs.up, hs.down, hs.messages, hs.sizes⟩
    · cases h
  | accept ok =>
    simp only [Session.step] at h
    split at h
    · rename_i hstage
      have hsocket : s.socket = false := by
        by_contra hopen
        simpa [hstage] using hs.socket (by simpa using hopen)
      split at h <;> cases h
      · exact ⟨fun _ => rfl, fun _ => .inr (.inl rfl), fun _ => .inl rfl, hs.up, hs.down,
          hs.messages, hs.sizes⟩
      · exact ⟨by simp, by simp, by simp [hsocket], hs.up, hs.down, hs.messages, hs.sizes⟩
    · cases h
  | message binary payload n =>
    simp only [Session.step] at h
    split at h
    · split at h
      · split at h
        · exact hs.upStep h
        · obtain ⟨u, hu, ht⟩ := Option.bind_eq_some_iff.mp h
          exact (hs.upStep hu).upStep ht
      · exact hs.upStep h
    · cases h
  | hangup | sshdBreaks | upRead | upWrite | upWriteFail | upReadFail | upStop =>
    simp only [Session.step] at h
    split at h
    · exact hs.upStep h
    · cases h
  | output | quit | clientBreaks | downRead | downWriteFail | downReadFail | downStop =>
    simp only [Session.step] at h
    split at h
    · exact hs.downStep rfl h
    · cases h
  | downWrite =>
    simp only [Session.step] at h
    split at h
    · obtain ⟨u, hu, rfl⟩ := Option.map_eq_some_iff.mp h
      exact hs.downWrite hu
    · cases h
  | wake =>
    simp only [Session.step] at h
    split at h <;> cases h
    exact ⟨by simp, fun _ => .inr (.inr rfl), fun _ => .inr (.inl rfl), hs.up, hs.down,
      hs.messages, hs.sizes⟩
  | closeUpstream =>
    simp only [Session.step] at h
    split at h <;> cases h
    exact ⟨by simp, by simp, fun _ => .inr (.inr rfl), hs.up, hs.down, hs.messages, hs.sizes⟩
  | closeDown =>
    simp only [Session.step] at h
    split at h <;> cases h
    rename_i hstage
    have hup : s.upstream = false := by
      by_contra hopen
      simpa [hstage] using hs.upstream (by simpa using hopen)
    exact ⟨by simp, by simp [hup], by simp, hs.up, hs.down, hs.messages, hs.sizes⟩

theorem Sound.ends_closed (hs : s.Sound) (hstage : s.stage = .returned) :
    s.upstream = false ∧ s.socket = false := by
  constructor
  · by_contra hopen
    simpa [hstage] using hs.upstream (by simpa using hopen)
  · by_contra hopen
    simpa [hstage] using hs.socket (by simpa using hopen)

theorem stage_upStep (h : s.upStep op = some t) : t.stage = s.stage := by
  obtain ⟨up, -, rfl⟩ := Option.map_eq_some_iff.mp h
  rfl

theorem stage_downStep (h : s.downStep op = some t) : t.stage = s.stage := by
  obtain ⟨down, -, rfl⟩ := Option.map_eq_some_iff.mp h
  rfl

theorem running_step (h : s.step e = some t) : t.stage.running = s.stage.running := by
  cases e with
  | dial | accept =>
    simp only [Session.step] at h
    split at h
    · rename_i hstage
      split at h <;> cases h <;> rw [hstage] <;> rfl
    · cases h
  | message binary payload n =>
    simp only [Session.step] at h
    split at h
    · split at h
      · split at h
        · rw [stage_upStep h]
        · obtain ⟨u, hu, ht⟩ := Option.bind_eq_some_iff.mp h
          rw [stage_upStep ht, stage_upStep hu]
      · rw [stage_upStep h]
    · cases h
  | hangup | sshdBreaks | upRead | upWrite | upWriteFail | upReadFail | upStop =>
    simp only [Session.step] at h
    split at h
    · rw [stage_upStep h]
    · cases h
  | output | quit | clientBreaks | downRead | downWriteFail | downReadFail | downStop =>
    simp only [Session.step] at h
    split at h
    · rw [stage_downStep h]
    · cases h
  | downWrite =>
    simp only [Session.step] at h
    split at h
    · obtain ⟨u, hu, rfl⟩ := Option.map_eq_some_iff.mp h
      have hstage := stage_downStep hu
      simp only [hstage]
    · cases h
  | wake =>
    simp only [Session.step] at h
    split at h <;> cases h
    rename_i hstage
    rw [hstage.1]
    rfl
  | closeUpstream | closeDown =>
    simp only [Session.step] at h
    split at h <;> cases h
    rename_i hstage
    rw [hstage]
    rfl

end Session

-- ---------------------------------------------------------------------------
-- What the server keeps
-- ---------------------------------------------------------------------------

structure Server.Sound (s : Server) : Prop where
  slots : s.slots.Exact maxSessions
  nodup : s.slots.tasks.Nodup
  running : ∀ n, n ∈ s.slots.tasks ↔ (s.sessions n).stage.running = true
  fresh : ∀ n, s.next ≤ n → s.sessions n = .initial
  sessions : ∀ n, (s.sessions n).Sound

theorem Session.initial_step (e : SessionEvent) : initial.step e = none := by
  cases e <;> rfl

section
variable {s t : Server}

theorem Server.Sound.put (hs : s.Sound) {slots : Slots Nat} {next : Nat}
    (hslots : slots.Exact maxSessions) (hnodup : slots.tasks.Nodup)
    (hself : n ∈ slots.tasks ↔ x.stage.running = true)
    (hother : ∀ k, k ≠ n → (k ∈ slots.tasks ↔ k ∈ s.slots.tasks)) (hnext : s.next ≤ next)
    (hn : n < next) (hx : x.Sound) : Sound { s.set n x with slots, next } := by
  refine ⟨hslots, hnodup, fun k => ?_, fun k hk => ?_, fun k => ?_⟩
  · by_cases hkn : k = n
    · subst hkn
      simpa [Server.set] using hself
    · rw [hother k hkn, hs.running k]
      simp [Server.set, hkn]
  · have hkn : k ≠ n := fun heq => Nat.not_lt.mpr (heq ▸ hk) hn
    simpa [Server.set, hkn] using hs.fresh k (Nat.le_trans hnext hk)
  · by_cases hkn : k = n
    · subst hkn
      simpa [Server.set] using hx
    · simpa [Server.set, hkn] using hs.sessions k

theorem Server.Sound.step (hs : s.Sound) (h : step s e = some t) : t.Sound := by
  cases e with
  | request =>
    have hnew : s.next ∉ s.slots.tasks := fun hmem => by
      have hrun := (hs.running s.next).mp hmem
      rw [hs.fresh s.next (Nat.le_refl _)] at hrun
      cases hrun
    simp only [Bridge.step] at h
    split at h
    · rename_i slots hslots
      cases h
      have hexact := hs.slots.acquire hslots
      obtain ⟨-, rfl⟩ := Slots.acquire_eq_some hslots
      refine hs.put hexact (List.nodup_cons.mpr ⟨hnew, hs.nodup⟩) (by simp [Stage.running])
        (fun k hk => by simp [hk]) (Nat.le_succ _) (Nat.lt_succ_self _) ?_
      exact Session.sound_initial (by simp) none
    · cases h
      refine hs.put hs.slots hs.nodup (by simpa [Server.set, Stage.running] using hnew)
        (fun k _ => Iff.rfl) (Nat.le_succ _) (Nat.lt_succ_self _) ?_
      exact Session.sound_initial (by simp) (some 503)
  | session n e =>
    obtain ⟨x, hx, rfl⟩ := Option.map_eq_some_iff.mp h
    have hn : n < s.next := by
      by_contra hlate
      rw [hs.fresh n (Nat.not_lt.mp hlate), Session.initial_step] at hx
      cases hx
    refine hs.put hs.slots hs.nodup ?_ (fun k _ => Iff.rfl) (Nat.le_refl _) hn
      ((hs.sessions n).step hx)
    rw [Session.running_step hx]
    exact hs.running n
  | release k =>
    simp only [Bridge.step] at h
    split at h
    · rename_i n hk
      split at h
      · rename_i hclosed
        obtain ⟨slots, hslots, rfl⟩ := Option.map_eq_some_iff.mp h
        have hexact := hs.slots.release hk hslots
        cases (hs.slots.release_isSome hk).symm.trans hslots
        have hperm := Slots.perm_of_get hk
        have hnodup := List.nodup_cons.mp (hperm.nodup_iff.mp hs.nodup)
        have hmem : n ∈ s.slots.tasks := List.mem_of_getElem? hk
        have hn : n < s.next := by
          by_contra hlate
          have hrun := (hs.running n).mp hmem
          rw [hs.fresh n (Nat.not_lt.mp hlate)] at hrun
          cases hrun
        have hsession := hs.sessions n
        refine hs.put hexact hnodup.2 (by simpa [Stage.running] using hnodup.1) (fun j hj => ?_)
          (Nat.le_refl _) hn ?_
        · rw [hperm.mem_iff]
          simp [hj]
        · exact ⟨by simp, fun hup => by simpa [hclosed] using hsession.upstream hup,
            fun hsock => by simpa [hclosed] using hsession.socket hsock, hsession.up,
            hsession.down, hsession.messages, hsession.sizes⟩
      · cases h
    · cases h

theorem Server.Sound.reachable (hs : server.Reachable ok s) : s.Sound := by
  refine hs.invariant (fun s hinit => ?_) fun _ _ _ hI _ hstep => hI.step hstep
  obtain ⟨hslots, hsessions, -⟩ := hinit
  refine ⟨hslots ▸ Slots.exact_empty, ?_, fun n => ?_, fun n _ => hsessions n, fun n => ?_⟩
  · rw [hslots]
    exact List.nodup_nil
  · rw [hslots, hsessions]
    simp [Slots.empty, Session.initial, Stage.running]
  · rw [hsessions]
    exact Session.sound_initial (by simp) none

-- ---------------------------------------------------------------------------
-- How a session ends
-- ---------------------------------------------------------------------------

/-- The steps that the handler and the loops of session `n` take by themselves. -/
def Own (n : Nat) (s : Server) : Event → Prop
  | .request => False
  | .session m e => m = n ∧ e.own = true
  | .release k => s.slots.tasks[k]? = some n

instance (n : Nat) (s : Server) (e : Event) : Decidable (Own n s e) :=
  match e with
  | .request => inferInstanceAs (Decidable False)
  | .session .. => inferInstanceAs (Decidable (_ ∧ _))
  | .release _ => inferInstanceAs (Decidable (_ = _))

def Stage.left : Stage → Nat
  | .piping => 4
  | .closing => 3
  | .closingDown => 2
  | .closed => 1
  | .idle | .refused | .dialing | .upgrading | .returned => 0

def Session.left (x : Session) : Nat := x.stage.left + x.up.left + x.down.left

/-- One direction is over, and the handler is on its way out. -/
def Session.Ending (x : Session) : Prop :=
  x.stage = .piping ∧ (x.up.result.isSome = true ∨ x.down.result.isSome = true) ∨
    x.stage = .closing ∨ x.stage = .closingDown ∨ x.stage = .closed ∨ x.stage = .returned

section
variable {x y : Session}

inductive Session.OwnStep (x : Session) : Session → Prop
  | up {op up} (hop : op.alone = true) (h : x.up.step bufferBytes op = some up) :
      OwnStep x { x with up }
  | down {op down} (hop : op.alone = true) (h : x.down.step bufferBytes op = some down) :
      OwnStep x { x with down }
  | wake (hstage : x.stage = .piping) : OwnStep x { x with stage := .closing }
  | closeUpstream (hstage : x.stage = .closing) :
      OwnStep x { x with stage := .closingDown, upstream := false }
  | closeDown (hstage : x.stage = .closingDown) :
      OwnStep x { x with stage := .closed, socket := false }

theorem Session.step_own (he : e.own = true) (h : x.step e = some y) : x.OwnStep y := by
  cases e with
  | dial | accept | message | hangup | output | quit | sshdBreaks | clientBreaks | upWrite
  | downWrite => cases he
  | upRead | upWriteFail | upReadFail | upStop =>
    simp only [Session.step] at h
    split at h
    · obtain ⟨up, hup, rfl⟩ := Option.map_eq_some_iff.mp h
      exact .up rfl hup
    · cases h
  | downRead | downWriteFail | downReadFail | downStop =>
    simp only [Session.step] at h
    split at h
    · obtain ⟨down, hdown, rfl⟩ := Option.map_eq_some_iff.mp h
      exact .down rfl hdown
    · cases h
  | wake =>
    simp only [Session.step] at h
    split at h <;> cases h
    rename_i hstage
    exact .wake hstage.1
  | closeUpstream =>
    simp only [Session.step] at h
    split at h <;> cases h
    rename_i hstage
    exact .closeUpstream hstage
  | closeDown =>
    simp only [Session.step] at h
    split at h <;> cases h
    rename_i hstage
    exact .closeDown hstage

theorem Session.OwnStep.left_lt (h : x.OwnStep y) : y.left < x.left := by
  cases h with
  | up hop hup =>
    have hlt := Pipe.left_lt hop hup
    simp only [Session.left]
    omega
  | down hop hdown =>
    have hlt := Pipe.left_lt hop hdown
    simp only [Session.left]
    omega
  | wake hstage | closeUpstream hstage | closeDown hstage =>
    simp only [Session.left, hstage, Stage.left]
    omega

theorem Session.OwnStep.copying (h : x.OwnStep y) : y.copying = x.copying := by
  cases h <;> rfl

theorem Session.OwnStep.returned_iff (h : x.OwnStep y) :
    y.stage = .returned ↔ x.stage = .returned := by
  cases h with
  | up | down => exact Iff.rfl
  | wake hstage | closeUpstream hstage | closeDown hstage => simp [hstage]

theorem Session.OwnStep.ending (h : x.OwnStep y) (hx : x.Ending) : y.Ending := by
  cases h with
  | up hop hup =>
    rcases hx with ⟨hstage, hover⟩ | hx
    · refine .inl ⟨hstage, .inr ?_⟩
      simpa [Pipe.result_of_alone hop hup] using hover
    · exact .inr hx
  | down hop hdown =>
    rcases hx with ⟨hstage, hover⟩ | hx
    · refine .inl ⟨hstage, .inl ?_⟩
      simpa [Pipe.result_of_alone hop hdown] using hover
    · exact .inr hx
  | wake => exact .inr (.inl rfl)
  | closeUpstream => exact .inr (.inr (.inl rfl))
  | closeDown => exact .inr (.inr (.inr (.inl rfl)))

/-- A session that is past its ends has nothing left to do only if both loops
have returned. -/
theorem Session.loops_returned (hcopying : x.copying = true) (hup : x.upstream = false)
    (hsock : x.socket = false) (hstuck : ∀ e, e.own = true → x.step e = none) :
    x.up.result.isSome = true ∧ x.down.result.isSome = true := by
  constructor
  · refine Pipe.result_of_stuck bufferBytes ?_ ?_
    · simpa [Session.step, hcopying, hsock, Session.upStep] using hstuck .upReadFail rfl
    · simpa [Session.step, hcopying, hup, Session.upStep] using hstuck .upWriteFail rfl
  · refine Pipe.result_of_stuck bufferBytes ?_ ?_
    · simpa [Session.step, hcopying, hup, Session.downStep] using hstuck .downReadFail rfl
    · simpa [Session.step, hcopying, hsock, Session.downStep] using hstuck .downWriteFail rfl

end

structure Server.EndsFrom (s : Server) (n : Nat) (t : Server) : Prop where
  sound : t.Sound
  copying : (t.sessions n).copying = true
  ending : (t.sessions n).Ending
  held : (t.sessions n).stage ≠ .returned → t.slots.used = s.slots.used
  freed : (t.sessions n).stage = .returned → t.slots.used + 1 = s.slots.used
  others : ∀ k, k ≠ n → t.sessions k = s.sessions k

theorem Own.left_lt (hok : Own n s e) (h : step s e = some t) :
    (t.sessions n).left < (s.sessions n).left := by
  cases e with
  | request => exact hok.elim
  | session m e =>
    obtain ⟨rfl, he⟩ := hok
    obtain ⟨y, hy, rfl⟩ := Option.map_eq_some_iff.mp h
    simpa [Server.set] using (Session.step_own he hy).left_lt
  | release k =>
    have hk : s.slots.tasks[k]? = some n := hok
    simp only [Bridge.step, hk] at h
    split at h
    · rename_i hclosed
      obtain ⟨slots, -, rfl⟩ := Option.map_eq_some_iff.mp h
      simp [Server.set, Session.left, hclosed, Stage.left]
    · cases h

theorem Server.EndsFrom.step {u : Server} (h : s.EndsFrom n t) (hok : Own n t e)
    (hstep : Bridge.step t e = some u) : s.EndsFrom n u := by
  have hsound := h.sound.step hstep
  cases e with
  | request => exact hok.elim
  | session m e =>
    obtain ⟨rfl, he⟩ := hok
    obtain ⟨y, hy, rfl⟩ := Option.map_eq_some_iff.mp hstep
    have hown := Session.step_own he hy
    refine ⟨hsound, ?_, ?_, fun hne => h.held ?_, fun hret => h.freed ?_, fun k hk => ?_⟩
    · simpa [Server.set, hown.copying] using h.copying
    · simpa [Server.set] using hown.ending h.ending
    · simpa [Server.set, hown.returned_iff] using hne
    · simpa [Server.set, hown.returned_iff] using hret
    · simpa [Server.set, hk] using h.others k hk
  | release k =>
    have hk : t.slots.tasks[k]? = some n := hok
    simp only [Bridge.step, hk] at hstep
    split at hstep
    · rename_i hclosed
      obtain ⟨slots, hslots, rfl⟩ := Option.map_eq_some_iff.mp hstep
      cases (h.sound.slots.release_isSome hk).symm.trans hslots
      have hheld := h.held (by simp [hclosed])
      have hpos : 0 < t.slots.used := by
        rw [h.sound.slots.count]
        exact List.length_pos_of_mem (List.mem_of_getElem? hk)
      refine ⟨hsound, ?_, ?_, fun hne => ?_, fun _ => ?_, fun j hj => ?_⟩
      · simpa [Server.set] using h.copying
      · simp [Server.set, Session.Ending]
      · simp [Server.set] at hne
      · simp only
        omega
      · simpa [Server.set, hj] using h.others j hj
    · cases hstep

theorem Server.EndsFrom.run (h : s.EndsFrom n s) (hrun : server.Run (Own n) s t) :
    s.EndsFrom n t := by
  induction hrun with
  | refl => exact h
  | step _ hok hstep ih => exact ih.step hok hstep

theorem Server.EndsFrom.stuck (h : s.EndsFrom n t)
    (hstuck : ∀ e, Own n t e → server.step t e = none) :
    (t.sessions n).stage = .returned ∧ (t.sessions n).up.result.isSome = true ∧
      (t.sessions n).down.result.isSome = true := by
  have hquiet (e) (he : e.own = true) : (t.sessions n).step e = none :=
    Option.map_eq_none_iff.mp (hstuck (.session n e) ⟨rfl, he⟩)
  have hreturned : (t.sessions n).stage = .returned := by
    rcases h.ending with ⟨hstage, hover⟩ | hstage | hstage | hstage | hstage
    · simpa [Session.step, hstage, hover] using hquiet .wake rfl
    · simpa [Session.step, hstage] using hquiet .closeUpstream rfl
    · simpa [Session.step, hstage] using hquiet .closeDown rfl
    · obtain ⟨k, hk⟩ := List.mem_iff_getElem?.mp ((h.sound.running n).mpr (by rw [hstage]; rfl))
      simpa [server, Bridge.step, hk, hstage, h.sound.slots.release_isSome hk] using
        hstuck (.release k) hk
    · exact hstage
  obtain ⟨hup, hsock⟩ := (h.sound.sessions n).ends_closed hreturned
  exact ⟨hreturned, Session.loops_returned h.copying hup hsock hquiet⟩

/-- What the bridge does with any number of clients, however its handlers and
loops interleave. At most 64 connections to sshd are open, and a client is
turned away only when 64 handlers run. Each direction of a session is carried
from its beginning and in order, with nothing of another session in it, and to
the last byte when it ended cleanly. A handler that has returned has closed both
ends. As soon as one direction is over the session comes to its end by its own
steps, in any order, while neither the client nor sshd does anything: there are
few of them, and where none is left the handler has returned, both loops have
ended and the place is free. -/
theorem bridge_sessions (hs : server.Reachable (fun _ _ => True) s) :
    (∀ l : List Nat, l.Nodup → (∀ n ∈ l, (s.sessions n).upstream = true) →
      l.length ≤ maxSessions) ∧
    (∀ t, server.step s .request = some t → (t.sessions s.next).stage = .refused →
      s.slots.tasks.length = maxSessions ∧
        ∀ n ∈ s.slots.tasks, (s.sessions n).stage.running = true) ∧
    (∀ n, (s.sessions n).up.written <+: (s.sessions n).up.given ∧
      (s.sessions n).messages.flatten <+: (s.sessions n).down.given ∧
      (∀ m ∈ (s.sessions n).messages, m ≠ [] ∧ m.length ≤ bufferBytes) ∧
      ((s.sessions n).up.result = some .clean →
        (s.sessions n).up.written = (s.sessions n).up.given) ∧
      ((s.sessions n).down.result = some .clean →
        (s.sessions n).messages.flatten = (s.sessions n).down.given)) ∧
    (∀ n, (s.sessions n).stage = .returned →
      (s.sessions n).upstream = false ∧ (s.sessions n).socket = false) ∧
    (∀ n, (s.sessions n).stage = .piping →
      (s.sessions n).up.result.isSome = true ∨ (s.sessions n).down.result.isSome = true →
      ∀ es t, server.exec (Own n) s es = some t → es.length ≤ (s.sessions n).left ∧
        (∀ k, k ≠ n → t.sessions k = s.sessions k) ∧
        ((∀ e, Own n t e → server.step t e = none) → (t.sessions n).stage = .returned ∧
          (t.sessions n).up.result.isSome = true ∧ (t.sessions n).down.result.isSome = true ∧
          t.slots.used + 1 = s.slots.used)) := by
  have hI := Server.Sound.reachable hs
  refine ⟨fun l hl hopen => ?_, fun t hstep hrefused => ?_, fun n => ?_, fun n hstage => ?_,
    fun n hstage hover es t hexec => ?_⟩
  · have hsub : l ⊆ s.slots.tasks := fun n hn => by
      refine (hI.running n).mpr ?_
      rcases (hI.sessions n).upstream (hopen n hn) with h | h | h <;> rw [h] <;> rfl
    exact Nat.le_trans (hl.length_le_of_subset hsub) hI.slots.length_le
  · change Bridge.step s .request = some t at hstep
    simp only [Bridge.step] at hstep
    split at hstep <;> cases hstep
    · simp [Server.set] at hrefused
    · rename_i hnone
      have hfull := Slots.acquire_eq_none.mp hnone
      exact ⟨Nat.le_antisymm hI.slots.length_le (hI.slots.count ▸ hfull),
        fun n hn => (hI.running n).mp hn⟩
  · have hn := hI.sessions n
    refine ⟨hn.up.order, hn.messages ▸ hn.down.order, hn.sizes, hn.up.whole, fun hr => ?_⟩
    exact hn.messages.trans (hn.down.whole hr)
  · exact (hI.sessions n).ends_closed hstage
  · have hstart : s.EndsFrom n s := ⟨hI, (hI.sessions n).copying hstage, .inl ⟨hstage, hover⟩,
      fun _ => rfl, fun hret => by simp [hstage] at hret, fun _ _ => rfl⟩
    have hends := hstart.run (.of_exec hexec)
    have hlength := Machine.exec_length (fun u => (u.sessions n).left)
      (fun _ _ _ hok hstep => hok.left_lt hstep) hexec
    refine ⟨by omega, hends.others, fun hstuck => ?_⟩
    obtain ⟨hreturned, hup, hdown⟩ := hends.stuck hstuck
    exact ⟨hreturned, hup, hdown, hends.freed hreturned⟩

end

namespace Sample

def started : Server := ⟨.empty, fun _ => .initial, 0⟩

theorem started_reachable : server.Reachable ok started := .of_init ⟨rfl, fun _ => rfl, rfl⟩

def visit : List Event := .request :: ([.dial true, .accept true, .message true [83, 83, 72] 0,
  .output [79, 75], .upRead 3, .upWrite, .downRead 2, .downWrite, .hangup .clean,
  .upStop] : List SessionEvent).map (.session 0)

/-- The handler closes both ends and returns, and the loop from sshd, which sent
nothing more, fails at its closed source. -/
def leave : List Event := [.session 0 .wake, .session 0 .closeUpstream, .session 0 .closeDown,
  .release 0, .session 0 .downReadFail]

end Sample

theorem bridge_sessions_sample : ∃ s t, server.Reachable (fun _ _ => True) s ∧
    (s.sessions 0).up.result = some .clean ∧ (s.sessions 0).up.given = [83, 83, 72] ∧
    (s.sessions 0).up.written = (s.sessions 0).up.given ∧
    (s.sessions 0).messages = [[79, 75]] ∧ (s.sessions 0).down.result = none ∧
    server.exec (Own 0) s Sample.leave = some t ∧ Sample.leave.length ≤ (s.sessions 0).left ∧
    (t.sessions 0).stage = .returned ∧ (t.sessions 0).down.result = some .failed := by
  have hexec : (server.exec (fun _ _ => True) Sample.started Sample.visit).any (fun s =>
      (s.sessions 0).up.result == some .clean && (s.sessions 0).up.given == [83, 83, 72] &&
      (s.sessions 0).messages == [[79, 75]] && (s.sessions 0).stage == .piping &&
      (s.sessions 0).down.result == none &&
      (server.exec (Own 0) s Sample.leave).any fun t => (t.sessions 0).stage == .returned &&
        (t.sessions 0).down.result == some .failed) = true := by
    decide +kernel
  obtain ⟨s, hs, hfacts⟩ := Option.any_eq_true .. |>.mp hexec
  simp only [Bool.and_eq_true, beq_iff_eq] at hfacts
  obtain ⟨⟨⟨⟨⟨hclean, hgiven⟩, hmessages⟩, hstage⟩, hdown⟩, hleave⟩ := hfacts
  obtain ⟨t, ht, hreturned⟩ := Option.any_eq_true .. |>.mp hleave
  simp only [Bool.and_eq_true, beq_iff_eq] at hreturned
  have hreach : server.Reachable (fun _ _ => True) s :=
    Sample.started_reachable.run (.of_exec hs)
  obtain ⟨-, -, hcarried, -, hends⟩ := bridge_sessions hreach
  obtain ⟨-, -, -, hwhole, -⟩ := hcarried 0
  obtain ⟨hlength, -⟩ := hends 0 hstage (.inl (by simp [hclean])) Sample.leave t ht
  exact ⟨s, t, hreach, hclean, hgiven, hwhole hclean, hmessages, hdown, ht, hlength, hreturned⟩

end Grantd.Bridge
