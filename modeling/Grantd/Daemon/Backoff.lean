import Grantd.Canonical
import Mathlib.Data.List.Basic
import Mathlib.Tactic.Ring

/-!
# Reconnecting

`Daemon.Run` and `Daemon.session` of go/daemon/rendezvous/rendezvous.go. What
a session meets outside (the signer, the service, the socket, the context) is
its input. Run goes back to the shortest delay after a session that returned
nil, and a session returns nil only when its context is cancelled.
-/

namespace Grantd.Daemon

open Base

-- ---------------------------------------------------------------------------
-- One session
-- ---------------------------------------------------------------------------

inductive SessionError
  | signerUnreachable (err : GoString)
  | registration (err : GoString)
  | register (err : GoString)
  | registerHTTP (status : Nat)
  | connectAuth (err : GoString)
  | dial (err : GoString)
  | dialHTTP (status : Nat) (err : GoString)
  | read (err : GoString)
  deriving DecidableEq, Repr

/-- What one session meets: the errors of its calls, the frames that arrive
and the error that ends them. `cancelled` is the context's state at that
error. -/
structure Session where
  ping : Option GoString
  registration : Option GoString
  put : Except GoString Nat
  connectAuth : Option GoString
  dial : Option (Option Nat × GoString)
  frames : List Bytes
  readErr : GoString
  cancelled : Bool

namespace Session

def register (s : Session) : Option SessionError :=
  match s.registration with
  | some err => some (.registration err)
  | none =>
    match s.put with
    | .error err => some (.register err)
    | .ok status => if 400 ≤ status then some (.registerHTTP status) else none

/-- The loop over the frames. The session's own context is stopped only when
the session returns, so it is done when the daemon's is. -/
def serve (s : Session) : List Bytes → Option SessionError
  | [] => if s.cancelled then none else some (.read s.readErr)
  | _ :: frames => s.serve frames

def session (s : Session) : Option SessionError :=
  match s.ping with
  | some err => some (.signerUnreachable err)
  | none =>
    match s.register with
    | some err => some err
    | none =>
      match s.connectAuth with
      | some err => some (.connectAuth err)
      | none =>
        match s.dial with
        | some (some status, err) => some (.dialHTTP status err)
        | some (none, err) => some (.dial err)
        | none => s.serve s.frames

/-- The session comes to "rendezvous connected". -/
def connects (s : Session) : Bool :=
  s.ping.isNone && s.register.isNone && s.connectAuth.isNone && s.dial.isNone

end Session

-- ---------------------------------------------------------------------------
-- Run
-- ---------------------------------------------------------------------------

/-- Durations are in nanoseconds. -/
def second : Nat := 1000000000

def minBackoff : Nat := 1 * second
def maxBackoff : Nat := 60 * second

/-- `random` is what `rand.Int63n` drew. -/
def jitter (d random : Nat) : Nat := d / 2 + random

def nextBackoff (backoff : Nat) (err : Option SessionError) : Nat :=
  let backoff := backoff * 2
  let backoff := if maxBackoff < backoff then maxBackoff else backoff
  if err.isNone then minBackoff else backoff

structure Turn where
  cancelledBefore : Bool
  session : Session
  cancelledAfter : Bool
  random : Nat
  cancelledWaiting : Bool

/-- `Run` returns `ctx.Err()` or nil. -/
inductive Returned
  | ctxErr
  | nil
  deriving DecidableEq, Repr

/-- The loop of `Run`: the delays, and how it returned if it did. -/
def run (backoff : Nat) : List Turn → List Nat × Option Returned
  | [] => ([], none)
  | t :: rest =>
    if t.cancelledBefore then ([], some .ctxErr)
    else
      let err := t.session.session
      if t.cancelledAfter then ([], some .nil)
      else
        let delay := jitter backoff t.random
        if t.cancelledWaiting then ([delay], some .nil)
        else
          let (delays, returned) := run (nextBackoff backoff err) rest
          (delay :: delays, returned)

def delays (ts : List Turn) : List Nat := (run minBackoff ts).1

/-- `rand.Int63n(n)` draws below `n`. -/
def Drawn (backoff : Nat) : List Turn → Prop
  | [] => True
  | t :: rest => t.random < backoff ∧ Drawn (nextBackoff backoff t.session.session) rest

instance decidableDrawn (backoff : Nat) : (ts : List Turn) → Decidable (Drawn backoff ts)
  | [] => isTrue trivial
  | _ :: rest => @instDecidableAnd _ _ _ (decidableDrawn _ rest)

def Turn.Live (t : Turn) : Prop :=
  t.cancelledBefore = false ∧ t.session.cancelled = false ∧ t.cancelledAfter = false ∧
    t.cancelledWaiting = false

/-- `d` may be drawn for the back-off `b`: half of `b` or more, and less than
one and a half. -/
def Jittered (b d : Nat) : Prop := b ≤ 2 * d ∧ 2 * d < 3 * b

/-- What reconnecting is meant to do: after a session that had connected the
back-off starts anew, and no delay is shorter than half a second or as long as
90. -/
structure Restarts (ts : List Turn) : Prop where
  anew : ∀ j m t, 1 ≤ m → ts[j]? = some t → t.session.connects = true →
    (∀ i, j < i → i ≤ j + m → ∃ f, ts[i]? = some f ∧ f.session.connects = false) →
    ∀ d, (delays ts)[j + m]? = some d → Jittered (min maxBackoff (2 ^ (m - 1) * second)) d
  bounded : ∀ d ∈ delays ts, second ≤ 2 * d ∧ d < 90 * second

-- ---------------------------------------------------------------------------
-- The back-off without cancellation
-- ---------------------------------------------------------------------------

theorem Session.serve_live {s : Session} (h : s.cancelled = false) (frames : List Bytes) :
    s.serve frames = some (.read s.readErr) := by
  induction frames with
  | nil => simp only [serve, h, Bool.false_eq_true, if_false]
  | cons frame frames ih => exact ih

theorem Session.session_live {s : Session} (h : s.cancelled = false) :
    s.session.isNone = false := by
  unfold session
  split
  · rfl
  · split
    · rfl
    · split
      · rfl
      · split
        · rfl
        · rfl
        · rw [s.serve_live h]
          rfl

def backoffAt (n : Nat) : Nat := min maxBackoff (2 ^ n * minBackoff)

theorem nextBackoff_live {s : Session} (h : s.cancelled = false) (n : Nat) :
    nextBackoff (backoffAt n) s.session = backoffAt (n + 1) := by
  have hdouble : 2 ^ (n + 1) * minBackoff = 2 * (2 ^ n * minBackoff) := by rw [Nat.pow_succ]; ring
  simp only [nextBackoff, s.session_live h, Bool.false_eq_true, if_false]
  split
  · rename_i hcap
    unfold backoffAt at hcap ⊢
    omega
  · rename_i hcap
    unfold backoffAt at hcap ⊢
    omega

theorem backoffAt_bounds (n : Nat) : minBackoff ≤ backoffAt n ∧ backoffAt n ≤ maxBackoff := by
  have hpow : 1 ≤ 2 ^ n := Nat.one_le_two_pow
  have hmul : 1 * minBackoff ≤ 2 ^ n * minBackoff := Nat.mul_le_mul_right _ hpow
  have hmax : minBackoff ≤ maxBackoff := by decide
  unfold backoffAt
  omega

theorem run_live {ts : List Turn} (hlive : ∀ t ∈ ts, t.Live) (n i : Nat) :
    (run (backoffAt n) ts).1[i]? = ts[i]?.map fun t => jitter (backoffAt (n + i)) t.random := by
  induction ts generalizing n i with
  | nil => rfl
  | cons t ts ih =>
    obtain ⟨hbefore, hsession, hafter, hwaiting⟩ := hlive t List.mem_cons_self
    have hrest := ih fun u hu => hlive u (List.mem_cons_of_mem _ hu)
    simp only [run, hbefore, hafter, hwaiting, Bool.false_eq_true, if_false,
      nextBackoff_live hsession]
    cases i with
    | zero => rfl
    | succ i =>
      rw [List.getElem?_cons_succ, List.getElem?_cons_succ, hrest, Nat.add_right_comm n 1 i]
      rfl

theorem drawn_live {ts : List Turn} (hlive : ∀ t ∈ ts, t.Live) (n : Nat) :
    Drawn (backoffAt n) ts ↔ ∀ i t, ts[i]? = some t → t.random < backoffAt (n + i) := by
  induction ts generalizing n with
  | nil => simp [Drawn]
  | cons t ts ih =>
    have hnext := nextBackoff_live (hlive t List.mem_cons_self).2.1 n
    rw [Drawn, hnext, ih fun u hu => hlive u (List.mem_cons_of_mem _ hu)]
    constructor
    · rintro ⟨hhead, htail⟩ i u hu
      cases i with
      | zero =>
        cases hu
        exact hhead
      | succ i =>
        have := htail i u hu
        rwa [Nat.add_right_comm] at this
    · intro h
      refine ⟨h 0 t rfl, fun i u hu => ?_⟩
      rw [Nat.add_right_comm]
      exact h (i + 1) u hu

-- ---------------------------------------------------------------------------
-- When it restarts
-- ---------------------------------------------------------------------------

def NeverFailsAfter (sessions : List Session) : Prop :=
  ∀ j a b, sessions[j]? = some a → a.connects = true → sessions[j + 1]? = some b →
    b.connects = true

/-- Draws as much as can be drawn for the delay with this number. -/
def slowTurn (i : Nat) (s : Session) : Turn := ⟨false, s, false, backoffAt i - 1, false⟩

def slowest (sessions : List Session) : List Turn := sessions.mapIdx slowTurn

theorem slowest_getElem? (sessions : List Session) (i : Nat) :
    (slowest sessions)[i]? = sessions[i]?.map (slowTurn i) :=
  List.getElem?_mapIdx

theorem map_slowest (sessions : List Session) : (slowest sessions).map (·.session) = sessions := by
  refine List.ext_getElem? fun i => ?_
  rw [List.getElem?_map, slowest_getElem?, Option.map_map]
  exact Option.map_id'

theorem slowest_live {sessions : List Session} (h : ∀ s ∈ sessions, s.cancelled = false) :
    ∀ t ∈ slowest sessions, t.Live := by
  intro t ht
  obtain ⟨i, hi, rfl⟩ := List.mem_mapIdx.mp ht
  exact ⟨rfl, h _ (List.getElem_mem hi), rfl, rfl⟩

theorem slowest_drawn {sessions : List Session} (h : ∀ s ∈ sessions, s.cancelled = false) :
    Drawn minBackoff (slowest sessions) := by
  refine (drawn_live (slowest_live h) 0).mpr fun i t ht => ?_
  rw [slowest_getElem?] at ht
  obtain ⟨s, -, rfl⟩ := Option.map_eq_some_iff.mp ht
  have hpos : 0 < minBackoff := by decide
  rw [Nat.zero_add]
  exact Nat.sub_one_lt_of_lt (Nat.lt_of_lt_of_le hpos (backoffAt_bounds i).1)

theorem restarts_bounded {ts : List Turn} (hlive : ∀ t ∈ ts, t.Live)
    (hdrawn : Drawn minBackoff ts) :
    ∀ d ∈ delays ts, second ≤ 2 * d ∧ d < 90 * second := by
  intro d hd
  obtain ⟨i, hi⟩ := List.mem_iff_getElem?.mp hd
  rw [delays, show minBackoff = backoffAt 0 from rfl, run_live hlive, Option.map_eq_some_iff] at hi
  obtain ⟨t, ht, rfl⟩ := hi
  have hr := (drawn_live hlive 0).mp hdrawn i t ht
  obtain ⟨hmin, hmax⟩ := backoffAt_bounds (0 + i)
  simp only [minBackoff, maxBackoff, second, jitter] at hmin hmax ⊢
  omega

/-- Without cancellation reconnecting restarts, whatever is drawn, exactly when
no session that had connected is followed by one that fails to connect: the
back-off is never taken back. -/
theorem backoff_restarts_iff (sessions : List Session)
    (huncancelled : ∀ s ∈ sessions, s.cancelled = false) :
    (∀ ts : List Turn, ts.map (·.session) = sessions → (∀ t ∈ ts, t.Live) → Drawn minBackoff ts →
      Restarts ts) ↔ NeverFailsAfter sessions := by
  constructor
  · intro hall j a b ha hconnects hb
    by_contra hfails
    have hturn {i s} (hs : sessions[i]? = some s) :
        (slowest sessions)[i]? = some (slowTurn i s) := by
      rw [slowest_getElem?, hs, Option.map_some]
    have hlaw := hall _ (map_slowest sessions) (slowest_live huncancelled)
      (slowest_drawn huncancelled)
    have hdelay : (delays (slowest sessions))[j + 1]? =
        some (jitter (backoffAt (j + 1)) (backoffAt (j + 1) - 1)) := by
      rw [delays, show minBackoff = backoffAt 0 from rfl, run_live (slowest_live huncancelled),
        hturn hb, Nat.zero_add]
      rfl
    have hfailed : ∀ i, j < i → i ≤ j + 1 →
        ∃ f, (slowest sessions)[i]? = some f ∧ f.session.connects = false := by
      intro i hlt hle
      obtain rfl : i = j + 1 := by omega
      exact ⟨_, hturn hb, Bool.eq_false_iff.mpr hfails⟩
    -- It would have to be less than a second and a half, and the back-off is 2 s or more.
    have hshort := (hlaw.anew j 1 _ le_rfl (hturn ha) hconnects hfailed _ hdelay).2
    have hlong : 2 * second ≤ backoffAt (j + 1) := by
      have hpow : 2 ^ 1 ≤ 2 ^ (j + 1) := Nat.pow_le_pow_right (by decide) (by omega)
      have hmul := Nat.mul_le_mul_right minBackoff hpow
      simp only [backoffAt, maxBackoff, minBackoff, second] at hmul ⊢
      omega
    simp only [jitter, maxBackoff, second] at hshort hlong
    omega
  · intro hnever ts hts hlive hdrawn
    refine ⟨fun j m t hm ht hconnects hfailed => ?_, restarts_bounded hlive hdrawn⟩
    obtain ⟨f, hf, hno⟩ := hfailed (j + 1) (by omega) (by omega)
    have hget {i : Nat} {t : Turn} (h : ts[i]? = some t) : sessions[i]? = some t.session := by
      rw [← hts, List.getElem?_map, h]
      rfl
    rw [hnever j t.session f.session (hget ht) hconnects (hget hf)] at hno
    cases hno

namespace Sample

def unreachable : Session where
  ping := none
  registration := none
  put := .error (lit "connection refused")
  connectAuth := none
  dial := none
  frames := []
  readErr := []
  cancelled := false

def served : Session where
  ping := none
  registration := none
  put := .ok 200
  connectAuth := none
  dial := none
  frames := [lit "\x7b\"t\":\"hello\"\x7d"]
  readErr := lit "EOF"
  cancelled := false

def turn (s : Session) (random : Nat) : Turn := ⟨false, s, false, random, false⟩

def outage : List Turn :=
  (List.range 6).map (fun i => turn unreachable (2 ^ i)) ++ [turn served 0, turn unreachable 0]

end Sample

theorem backoff_restarts_sample :
    (∀ ts : List Turn, ts.map (·.session) = [Sample.unreachable, Sample.served, Sample.served] →
      (∀ t ∈ ts, t.Live) → Drawn minBackoff ts → Restarts ts) ∧
    ∃ ts : List Turn, ts.map (·.session) = [Sample.unreachable, Sample.served, Sample.served] ∧
      (∀ t ∈ ts, t.Live) ∧ Drawn minBackoff ts := by
  have hlive : ∀ s ∈ [Sample.unreachable, Sample.served, Sample.served], s.cancelled = false := by
    simp [Sample.unreachable, Sample.served]
  refine ⟨(backoff_restarts_iff _ hlive).mpr ?_, _, ?_, slowest_live hlive, slowest_drawn hlive⟩
  · intro j a b ha hconnects hb
    match j with
    | 0 =>
      cases ha
      cases hconnects
    | 1 =>
      cases hb
      rfl
    | j + 2 => cases hb
  · rfl

/-- The delay after the failure is drawn for a back-off of 60 seconds, though
the session before it had connected: half a minute is the least it can be. -/
theorem backoff_not_restarted :
    (∀ t ∈ Sample.outage, t.Live) ∧ Drawn minBackoff Sample.outage ∧
    Sample.served.connects = true ∧ Sample.unreachable.connects = false ∧
    (delays Sample.outage)[7]? = some (30 * second) ∧ ¬ Restarts Sample.outage := by
  have hlive : ∀ t ∈ Sample.outage, t.Live := by
    simp [Sample.outage, Turn.Live, Sample.turn, Sample.unreachable, Sample.served, List.range_succ]
  have hdrawn : Drawn minBackoff Sample.outage := by decide +kernel
  have hdelay : (delays Sample.outage)[7]? = some (30 * second) := by decide +kernel
  refine ⟨hlive, hdrawn, rfl, rfl, hdelay, fun h => ?_⟩
  have hfailed : ∀ i, 6 < i → i ≤ 6 + 1 →
      ∃ f, Sample.outage[i]? = some f ∧ f.session.connects = false := by
    intro i hlt hle
    obtain rfl : i = 7 := by omega
    exact ⟨_, rfl, rfl⟩
  have hshort := (h.anew 6 1 _ le_rfl rfl rfl hfailed _ hdelay).2
  revert hshort
  decide

end Grantd.Daemon
