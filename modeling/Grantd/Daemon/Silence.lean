import Grantd.Base.Machine
import Grantd.Daemon.Backoff

/-!
# A peer that falls silent

The connected part of `Daemon.session` and `pingLoop` of
go/daemon/rendezvous/rendezvous.go: one goroutine reads frames and handles
them, the other pings every 45 seconds and gives a pong 10. They share the
connection and the session's context, which is done when the daemon's is
cancelled or the session has returned. A Ping that gets no pong ends
`pingLoop`, and nothing carries that over to the goroutine that reads.
-/

namespace Grantd.Daemon

open Base

-- ---------------------------------------------------------------------------
-- The two goroutines
-- ---------------------------------------------------------------------------

def pingInterval : Nat := 45 * second

def pingTimeout : Nat := 10 * second
def writeTimeout : Nat := 10 * second

/-- The goroutine of `session`. `handleFrame` may write a frame, until the
deadline at the latest. -/
inductive Reader
  | reading
  | handling (deadline : Nat)
  | returned (err : Option SessionError)
  deriving DecidableEq, Repr

def Reader.isReturned : Reader → Bool
  | .returned _ => true
  | _ => false

/-- The goroutine of `pingLoop`; `tick` is when its ticker fires next. -/
inductive Pinger
  | waiting (tick : Nat)
  | pinging (tick deadline : Nat)
  | ended
  deriving DecidableEq, Repr

/-- A connected session. `cancelled` is the daemon's context, `closed` the
connection. `brokenAt` and `returnedAt` record when one of the two first went
and when the session returned. -/
structure Connected where
  now : Nat
  cancelled : Bool := false
  closed : Bool := false
  incoming : List Bytes := []
  frames : List Bytes := []
  ponged : Bool := false
  reader : Reader := .reading
  pinger : Pinger
  brokenAt : Option Nat := none
  returnedAt : Option Nat := none
  deriving DecidableEq, Repr

def connected (now : Nat) : Connected := { now, pinger := .waiting (now + pingInterval) }

namespace Connected

/-- `sessionCtx.Err() != nil`: `stop` runs when the session returns. -/
def done (s : Connected) : Bool := s.cancelled || s.returnedAt.isSome

def broken (s : Connected) : Bool := s.cancelled || s.closed

def noteBreak (s : Connected) : Connected := { s with brokenAt := s.brokenAt.or (some s.now) }

/-- `conn.Read` returns a message, which `handleFrame` gets. -/
def receive (s : Connected) : Option Connected :=
  match s.reader, s.incoming with
  | .reading, data :: rest =>
    some { s with
      incoming := rest, frames := s.frames ++ [data], reader := .handling (s.now + writeTimeout) }
  | _, _ => none

/-- What the session returns for an error of Read: the rest of its loop. -/
def result (s : Connected) (err : GoString) : Option SessionError :=
  Session.serve
    { ping := none, registration := none, put := .ok 200, connectAuth := none, dial := none,
      frames := s.frames, readErr := err, cancelled := s.cancelled } []

def fail (s : Connected) (err : GoString) : Option Connected :=
  match s.reader with
  | .reading =>
    if s.broken then
      some { s with reader := .returned (s.result err), returnedAt := some s.now }
    else none
  | _ => none

def handled (s : Connected) : Option Connected :=
  match s.reader with
  | .handling _ => some { s with reader := .reading }
  | _ => none

/-- The next step of `pingLoop`: the select on the context and the ticker, and
the return of a Ping, with an error when no pong has come. -/
def pingLoop (s : Connected) : Option Connected :=
  match s.pinger with
  | .waiting tick =>
    if s.done then some { s with pinger := .ended }
    else if tick ≤ s.now then
      some { s with
        ponged := false, pinger := .pinging (tick + pingInterval) (s.now + pingTimeout) }
    else none
  | .pinging tick deadline =>
    if s.ponged then some { s with pinger := .waiting tick }
    else if s.done || s.closed || decide (deadline ≤ s.now) then some { s with pinger := .ended }
    else none
  | .ended => none

end Connected

/-- What happens next. The first five come from outside. -/
inductive Event
  | elapse (now : Nat)
  | cancel
  | close
  | arrive (data : Bytes)
  | pong
  | receive
  | fail (err : GoString)
  | handled
  | pingLoop
  deriving DecidableEq, Repr

def Event.elapsed : Event → Option Nat
  | .elapse now => some now
  | _ => none

def Event.fromPeer : Event → Bool
  | .arrive _ | .pong => true
  | _ => false

def Connected.step (s : Connected) : Event → Option Connected
  | .elapse now => if s.now ≤ now then some { s with now } else none
  | .cancel => some { s.noteBreak with cancelled := true }
  | .close => some { s.noteBreak with closed := true }
  | .arrive data => some { s with incoming := s.incoming ++ [data] }
  | .pong => some { s with ponged := true }
  | .receive => s.receive
  | .fail err => s.fail err
  | .handled => s.handled
  | .pingLoop => s.pingLoop

def connection : Machine Connected Event where
  Init s := s = connected s.now
  step := Connected.step

-- ---------------------------------------------------------------------------
-- The library's and the scheduler's part
-- ---------------------------------------------------------------------------

/-- The reader may be left where it is until the given time. A Read waits for
a message and fails with the context or the connection, as does a Write. -/
def Connected.readerWaits (s : Connected) (time : Nat) : Bool :=
  match s.reader with
  | .reading => s.incoming.isEmpty && !s.broken
  | .handling deadline => decide (time ≤ deadline) && !s.broken
  | .returned _ => true

def Connected.pingerWaits (s : Connected) (time : Nat) : Bool :=
  match s.pinger with
  | .waiting tick => decide (time ≤ tick) && !s.done
  | .pinging _ deadline => decide (time ≤ deadline) && !s.ponged && !s.done && !s.closed
  | .ended => true

/-- Time passes only while both goroutines wait: what is ready to go on does
so at once. -/
def Paced (s : Connected) (e : Event) : Prop :=
  ∀ time ∈ e.elapsed, s.readerWaits time = true ∧ s.pingerWaits time = true

/-- The peer sends nothing, not even a pong. -/
def Mute (s : Connected) (e : Event) : Prop := Paced s e ∧ e.fromPeer = false

instance : Decidable (Paced s e) := inferInstanceAs (Decidable (∀ time ∈ e.elapsed, _))

instance : Decidable (Mute s e) := inferInstanceAs (Decidable (_ ∧ _))

theorem Mute.paced (h : Mute s e) : Paced s e := h.1

-- ---------------------------------------------------------------------------
-- When the session returns
-- ---------------------------------------------------------------------------

structure Breaks (s : Connected) : Prop where
  noted : s.broken = s.brokenAt.isSome
  returned : s.reader.isReturned = s.returnedAt.isSome
  prompt : ∀ b ∈ s.brokenAt, s.returnedAt = some b ∨ s.returnedAt = none ∧ s.now = b
  caused : ∀ r ∈ s.returnedAt, s.brokenAt = some r

theorem Connected.readerWaits_broken {s : Connected} (h : s.readerWaits time = true)
    (hreader : s.reader.isReturned = false) : s.broken = false := by
  unfold readerWaits at h
  cases hr : s.reader with
  | reading =>
    rw [hr] at h
    simpa using (Bool.and_eq_true_iff.mp h).2
  | handling deadline =>
    rw [hr] at h
    simpa using (Bool.and_eq_true_iff.mp h).2
  | returned err =>
    rw [hr] at hreader
    cases hreader

theorem Breaks.note (h : Breaks s) :
    ∀ b ∈ s.noteBreak.brokenAt, s.returnedAt = some b ∨ s.returnedAt = none ∧ s.now = b := by
  intro b hb
  cases hs : s.brokenAt with
  | some b' =>
    simp only [Connected.noteBreak, hs, Option.some_or, Option.mem_def, Option.some.injEq] at hb
    exact h.prompt b (hb ▸ hs)
  | none =>
    simp only [Connected.noteBreak, hs, Option.none_or, Option.mem_def, Option.some.injEq] at hb
    cases hr : s.returnedAt with
    | none => exact .inr ⟨rfl, hb⟩
    | some r => exact absurd (h.caused r hr) (by simp [hs])

theorem Breaks.note_caused (h : Breaks s) : ∀ r ∈ s.returnedAt, s.noteBreak.brokenAt = some r := by
  intro r hr
  simp [Connected.noteBreak, h.caused r hr]

theorem noteBreak_isSome (s : Connected) : s.noteBreak.brokenAt.isSome = true := by
  cases h : s.brokenAt <;> simp [Connected.noteBreak, h]

theorem Breaks.elapse (h : Breaks s) (hwaits : s.readerWaits now = true) :
    Breaks { s with now } := by
  refine ⟨h.noted, h.returned, fun b hb => ?_, h.caused⟩
  rcases h.prompt b hb with hr | ⟨hr, -⟩
  · exact .inl hr
  · have hbroken : s.broken = true := h.noted.trans (by rw [Option.mem_def.mp hb]; rfl)
    rw [s.readerWaits_broken hwaits (by rw [h.returned, hr]; rfl)] at hbroken
    cases hbroken

theorem Breaks.receive (h : Breaks s) (hstep : s.receive = some t) : Breaks t := by
  unfold Connected.receive at hstep
  split at hstep
  · rename_i hreader _
    cases hstep
    exact ⟨h.noted, (hreader ▸ h.returned :), h.prompt, h.caused⟩
  · cases hstep

theorem Breaks.handled (h : Breaks s) (hstep : s.handled = some t) : Breaks t := by
  unfold Connected.handled at hstep
  split at hstep
  · rename_i hreader
    cases hstep
    exact ⟨h.noted, (hreader ▸ h.returned :), h.prompt, h.caused⟩
  · cases hstep

theorem Breaks.fail (h : Breaks s) (hstep : s.fail err = some t) : Breaks t := by
  unfold Connected.fail at hstep
  split at hstep
  · rename_i hreader
    split at hstep
    · rename_i hbroken
      cases hstep
      obtain ⟨b, hb⟩ := Option.isSome_iff_exists.mp (h.noted.symm.trans hbroken)
      have hnow : s.now = b := by
        rcases h.prompt b hb with hr | ⟨-, hnow⟩
        · have := h.returned
          rw [hreader, hr] at this
          cases this
        · exact hnow
      refine ⟨h.noted, rfl, fun b' hb' => .inl ?_, fun r hr => ?_⟩
      · cases hb.symm.trans hb'
        rw [hnow]
      · cases hr
        rw [hnow, ← hb]
    · cases hstep
  · cases hstep

theorem pingLoop_frame {s t : Connected} (hstep : s.pingLoop = some t) :
    ∃ ponged pinger, t = { s with ponged, pinger } := by
  unfold Connected.pingLoop at hstep
  split at hstep
  · split at hstep
    · exact ⟨_, _, (Option.some.inj hstep).symm⟩
    · split at hstep
      · exact ⟨_, _, (Option.some.inj hstep).symm⟩
      · cases hstep
  · split at hstep
    · exact ⟨_, _, (Option.some.inj hstep).symm⟩
    · split at hstep
      · exact ⟨_, _, (Option.some.inj hstep).symm⟩
      · cases hstep
  · cases hstep

theorem Breaks.step (h : Breaks s) (hok : Paced s e) (hstep : s.step e = some t) : Breaks t := by
  cases e with
  | elapse now =>
    simp only [Connected.step] at hstep
    split at hstep
    · cases hstep
      exact h.elapse (hok now rfl).1
    · cases hstep
  | cancel =>
    cases hstep
    exact ⟨by rw [noteBreak_isSome]; rfl, h.returned, h.note, h.note_caused⟩
  | close =>
    cases hstep
    exact ⟨by rw [noteBreak_isSome]; exact Bool.or_true _, h.returned, h.note, h.note_caused⟩
  | arrive data =>
    cases hstep
    exact ⟨h.noted, h.returned, h.prompt, h.caused⟩
  | pong =>
    cases hstep
    exact ⟨h.noted, h.returned, h.prompt, h.caused⟩
  | receive => exact h.receive hstep
  | fail err => exact h.fail hstep
  | handled => exact h.handled hstep
  | pingLoop =>
    obtain ⟨ponged, pinger, rfl⟩ := pingLoop_frame hstep
    exact ⟨h.noted, h.returned, h.prompt, h.caused⟩

theorem Breaks.reachable (h : connection.Reachable Paced s) : Breaks s := by
  refine Machine.Reachable.invariant (fun s hs => ?_) (fun s e t hi hok ht => hi.step hok ht) h
  rw [show s = connected s.now from hs]
  exact ⟨rfl, rfl, nofun, nofun⟩

-- ---------------------------------------------------------------------------
-- When the pinger gives up
-- ---------------------------------------------------------------------------

def Punctual (s : Connected) : Prop :=
  match s.pinger with
  | .waiting tick => s.now ≤ tick ∧ tick ≤ s.now + pingInterval
  | .pinging tick deadline =>
    s.now ≤ deadline ∧ deadline ≤ s.now + pingTimeout ∧
      tick + pingTimeout = deadline + pingInterval
  | .ended => True

def Expires (time : Nat) (s : Connected) : Prop :=
  match s.pinger with
  | .waiting tick => tick + pingTimeout ≤ time
  | .pinging tick deadline => deadline ≤ time ∧ (s.ponged = true → tick + pingTimeout ≤ time)
  | .ended => True

theorem step_pinger {s t : Connected} (h : s.step e = some t) :
    (∃ now, e = .elapse now ∧ s.now ≤ now ∧ t = { s with now }) ∨
      s.pingLoop = some t ∨
      t.now = s.now ∧ t.pinger = s.pinger ∧ (e.fromPeer = false → t.ponged = s.ponged) := by
  cases e with
  | elapse now =>
    simp only [Connected.step] at h
    split at h
    · rename_i hle
      exact .inl ⟨now, rfl, hle, (Option.some.inj h).symm⟩
    · cases h
  | pingLoop => exact .inr (.inl h)
  | cancel | close | arrive =>
    cases h
    exact .inr (.inr ⟨rfl, rfl, fun _ => rfl⟩)
  | pong =>
    cases h
    exact .inr (.inr ⟨rfl, rfl, nofun⟩)
  | receive =>
    simp only [Connected.step, Connected.receive] at h
    split at h
    · cases h
      exact .inr (.inr ⟨rfl, rfl, fun _ => rfl⟩)
    · cases h
  | fail err =>
    simp only [Connected.step, Connected.fail] at h
    split at h
    · split at h
      · cases h
        exact .inr (.inr ⟨rfl, rfl, fun _ => rfl⟩)
      · cases h
    · cases h
  | handled =>
    simp only [Connected.step, Connected.handled] at h
    split at h
    · cases h
      exact .inr (.inr ⟨rfl, rfl, fun _ => rfl⟩)
    · cases h

theorem Punctual.elapse (h : Punctual s) (hle : s.now ≤ now) (hwaits : s.pingerWaits now = true) :
    Punctual { s with now } := by
  unfold Punctual at h ⊢
  unfold Connected.pingerWaits at hwaits
  cases hp : s.pinger with
  | waiting tick =>
    simp only [hp, Bool.and_eq_true, decide_eq_true_eq] at h hwaits ⊢
    omega
  | pinging tick deadline =>
    simp only [hp, Bool.and_eq_true, decide_eq_true_eq] at h hwaits ⊢
    omega
  | ended => trivial

/-- One step of `pingLoop`, on time: it stays so, and does not put off the
time at which it gives up. -/
theorem Punctual.pingLoop (h : Punctual s) (hstep : s.pingLoop = some t) :
    Punctual t ∧ ∀ time, Expires time s → Expires time t := by
  unfold Punctual at h
  unfold Connected.pingLoop at hstep
  cases hp : s.pinger with
  | waiting tick =>
    simp only [hp] at h hstep
    split at hstep
    · cases hstep
      exact ⟨trivial, fun _ _ => trivial⟩
    · split at hstep
      · cases hstep
        simp only [Punctual, Expires, hp]
        refine ⟨by omega, fun time htime => ⟨by omega, nofun⟩⟩
      · cases hstep
  | pinging tick deadline =>
    simp only [hp] at h hstep
    split at hstep
    · rename_i hponged
      cases hstep
      simp only [Punctual, Expires, hp]
      have hlt : pingTimeout < pingInterval := by decide
      exact ⟨by omega, fun time htime => htime.2 hponged⟩
    · split at hstep
      · cases hstep
        exact ⟨trivial, fun _ _ => trivial⟩
      · cases hstep
  | ended =>
    simp only [hp] at hstep
    cases hstep

theorem Punctual.step (h : Punctual s) (hok : Paced s e) (hstep : s.step e = some t) :
    Punctual t := by
  rcases step_pinger hstep with ⟨now, rfl, hle, rfl⟩ | hping | ⟨hnow, hpinger, -⟩
  · exact h.elapse hle (hok now rfl).2
  · exact (h.pingLoop hping).1
  · unfold Punctual
    rw [hnow, hpinger]
    exact h

theorem Punctual.reachable (h : connection.Reachable Paced s) : Punctual s := by
  refine Machine.Reachable.invariant (fun s hs => ?_) (fun s e t hi hok ht => hi.step hok ht) h
  rw [show s = connected s.now from hs]
  exact ⟨Nat.le_add_right _ _, Nat.le_refl _⟩

theorem Expires.step (h : Expires time s) (hs : Punctual s) (hok : Mute s e)
    (hstep : s.step e = some t) : Expires time t := by
  rcases step_pinger hstep with ⟨now, rfl, -, rfl⟩ | hping | ⟨-, hpinger, hponged⟩
  · exact h
  · exact (hs.pingLoop hping).2 time h
  · unfold Expires
    rw [hpinger, hponged hok.2]
    exact h

/-- From any moment on, a mute peer is given up after an interval and a
timeout. -/
theorem Punctual.expires (h : Punctual s) : Expires (s.now + pingInterval + pingTimeout) s := by
  unfold Punctual at h
  unfold Expires
  cases hp : s.pinger with
  | waiting tick =>
    simp only [hp] at h ⊢
    omega
  | pinging tick deadline =>
    simp only [hp] at h ⊢
    omega
  | ended => trivial

theorem Expires.ended (h : Expires time s) (hs : Punctual s) (hlate : time < s.now) :
    s.pinger = .ended := by
  unfold Punctual at hs
  unfold Expires at h
  cases hp : s.pinger with
  | waiting tick =>
    simp only [hp] at h hs
    omega
  | pinging tick deadline =>
    simp only [hp] at h hs
    omega
  | ended => rfl

theorem mute_pinger_ended (hs : connection.Reachable Paced s) (hrun : connection.Run Mute s t)
    (hlate : s.now + pingInterval + pingTimeout < t.now) : t.pinger = .ended := by
  have hexpires : Expires (s.now + pingInterval + pingTimeout) t ∧
      connection.Reachable Paced t := by
    clear hlate
    induction hrun with
    | refl => exact ⟨(Punctual.reachable hs).expires, hs⟩
    | step _ hok hstep ih =>
      exact ⟨ih.1.step (Punctual.reachable ih.2) hok hstep, ih.2.step hok.paced hstep⟩
  exact hexpires.1.ended (Punctual.reachable hexpires.2) hlate

-- ---------------------------------------------------------------------------
-- A mute peer
-- ---------------------------------------------------------------------------

def Connected.ReturnedBy (s : Connected) (time : Nat) : Prop := ∃ r ∈ s.returnedAt, r ≤ time

/-- The daemon's context was cancelled or the connection closed by then. -/
def Connected.BrokenBy (s : Connected) (time : Nat) : Prop := ∃ b ∈ s.brokenAt, b ≤ time

/-- After 55 seconds of silence the pinger has given up, and the session has
returned if and only if something else broke it. -/
theorem mute_returned_iff (hs : connection.Reachable Paced s) (hrun : connection.Run Mute s t)
    (hlate : s.now + pingInterval + pingTimeout < t.now) :
    t.pinger = .ended ∧
      (t.ReturnedBy (s.now + pingInterval + pingTimeout) ↔
        t.BrokenBy (s.now + pingInterval + pingTimeout)) := by
  have ht : Breaks t := .reachable (hs.run (hrun.mono fun _ _ => Mute.paced))
  refine ⟨mute_pinger_ended hs hrun hlate, ?_, ?_⟩
  · rintro ⟨r, hr, hle⟩
    exact ⟨r, ht.caused r hr, hle⟩
  · rintro ⟨b, hb, hle⟩
    rcases ht.prompt b hb with hr | ⟨-, hnow⟩
    · exact ⟨b, hr, hle⟩
    · omega

namespace Sample

def answered : List Event :=
  [.arrive (lit "hello"), .receive, .handled, .elapse pingInterval, .pingLoop, .pong, .pingLoop]

def stopped : List Event :=
  [.elapse (pingInterval + 30 * second), .cancel, .fail (lit "context canceled"), .pingLoop,
    .elapse (3 * pingInterval)]

def unanswered : List Event :=
  [.elapse pingInterval, .pingLoop, .elapse (pingInterval + pingTimeout), .pingLoop]

def quiet : Connected :=
  { now := pingInterval, pinger := .waiting (2 * pingInterval), frames := [lit "hello"],
    ponged := true }

def gone : Connected :=
  { quiet with
    now := 3 * pingInterval, cancelled := true, reader := .returned none, pinger := .ended,
    brokenAt := some (pingInterval + 30 * second),
    returnedAt := some (pingInterval + 30 * second) }

def deaf : Connected := { now := pingInterval + pingTimeout, pinger := .ended }

end Sample

theorem mute_returned_iff_stopped :
    connection.Reachable Paced Sample.quiet ∧ connection.Run Mute Sample.quiet Sample.gone ∧
      Sample.gone.ReturnedBy (Sample.quiet.now + pingInterval + pingTimeout) := by
  have hanswered : connection.exec Paced (connected 0) Sample.answered = some Sample.quiet := by
    decide +kernel
  have hstopped : connection.exec Mute Sample.quiet Sample.stopped = some Sample.gone := by
    decide +kernel
  have hquiet : connection.Reachable Paced Sample.quiet := ⟨connected 0, rfl, .of_exec hanswered⟩
  have hgone : connection.Run Mute Sample.quiet Sample.gone := .of_exec hstopped
  refine ⟨hquiet, hgone, (mute_returned_iff hquiet hgone (by decide)).2.mpr ?_⟩
  exact ⟨pingInterval + 30 * second, rfl, by decide⟩

/-- A session whose peer is mute from the start stays in its Read, however
late it is. -/
theorem mute_never_returns :
    (connected 0).reader = .reading ∧
      ∀ time, ∃ t, connection.Run Mute (connected 0) t ∧ time < t.now ∧ t.pinger = .ended ∧
        t.reader = .reading ∧ ¬ t.ReturnedBy time := by
  refine ⟨rfl, fun time => ?_⟩
  have hunanswered : connection.exec Mute (connected 0) Sample.unanswered = some Sample.deaf := by
    decide +kernel
  let late : Nat := Sample.deaf.now + time
  have hlater : connection.step Sample.deaf (.elapse late) =
      some { Sample.deaf with now := late } :=
    if_pos (Nat.le_add_right _ _)
  have hrun := (Machine.Run.of_exec hunanswered).step ⟨fun _ _ => ⟨rfl, rfl⟩, rfl⟩ hlater
  refine ⟨_, hrun, ?_, rfl, rfl, ?_⟩
  · exact Nat.lt_add_of_pos_left (by decide)
  · rintro ⟨r, hr, -⟩
    cases hr

end Grantd.Daemon
