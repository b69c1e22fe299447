import Grantd.Base.Machine
import Grantd.Base.Slots
import Grantd.Daemon.Rendezvous

/-!
# Redemptions in flight

The read loop of a session hands each `redeem.request` to a goroutine of its
own, which outlives the session if it must, and counts them in one channel for
all sessions (go/daemon/rendezvous/rendezvous.go). The service decides what is
read and when, and whether a write comes through. Goroutines come to their next
call in any order.
-/

namespace Grantd.Daemon

open Base JsonText
open Signer (Doc)

inductive Phase
  | started
  | calling (envelope : Bytes)
  | replied
  deriving DecidableEq, Repr

structure Flight where
  session : Nat
  frame : Frame
  phase : Phase
  deriving DecidableEq, Repr

/-- A call of `send`. Nothing is `written` if the session is gone or the time
is up. -/
structure Sending where
  session : Nat
  frame : Frame
  written : Bool

/-- `sends` are the calls of `send` and `received` the requests that were read,
newest first. -/
structure Redeeming where
  slots : Slots Flight
  sends : List Sending
  received : List (Nat × Frame)

/-- `written` is what becomes of the frame that is sent, if one is. -/
inductive FlightEvent
  | read (session : Nat) (data : Bytes) (written : Bool)
  /-- `handleRedeem` up to the call of the signer. -/
  | body (k : Nat) (written : Bool)
  /-- The call returns; `none` is an error. -/
  | answer (k : Nat) (r : Option (Int64 × Bytes)) (written : Bool)
  /-- The deferred receive. -/
  | release (k : Nat)

def Redeeming.reply (s : Redeeming) (k : Nat) (f : Flight) (answer : Frame) (written : Bool) :
    Redeeming :=
  { s with
    slots := s.slots.move k { f with phase := .replied }
    sends := ⟨f.session, answer, written⟩ :: s.sends }

def tooMany (id : GoString) : Frame := errorFrame id .rateLimited "too many redemptions in flight"

variable (scan : Bytes → Option Doc)

def flightStep (s : Redeeming) : FlightEvent → Option Redeeming
  | .read session data written =>
    if maxFrameBytes < data.length then none
    else
      match (scan data).bind Frame.ofDoc with
      | none => some s
      | some frame =>
        if frame.type = framePing then
          some { s with
            sends := ⟨session, { type := framePong, id := frame.id }, written⟩ :: s.sends }
        else if frame.type = frameRedeemRequest then
          let s := { s with received := (session, frame) :: s.received }
          match s.slots.acquire maxInflightRedeems ⟨session, frame, .started⟩ with
          | some slots => some { s with slots }
          | none => some { s with sends := ⟨session, tooMany frame.id, written⟩ :: s.sends }
        else some s
  | .body k written =>
    match s.slots.tasks[k]? with
    | some f =>
      match f.phase with
      | .started =>
        match f.frame.body with
        | none | some [] => some (s.reply k f
            (errorFrame f.frame.id .badRequest "empty or malformed redemption envelope") written)
        | some envelope =>
          some { s with slots := s.slots.move k { f with phase := .calling envelope } }
      | _ => none
    | none => none
  | .answer k r written =>
    match s.slots.tasks[k]? with
    | some f =>
      match f.phase with
      | .calling _ =>
        match r with
        | none => some (s.reply k f (errorFrame f.frame.id .internal "signer unavailable") written)
        | some (status, body) => some (s.reply k f (Frame.setBody
            { type := frameRedeemResponse, id := f.frame.id, status } (body.take maxAnswer))
              written)
      | _ => none
    | none => none
  | .release k =>
    match s.slots.tasks[k]? with
    | some f =>
      if f.phase = .replied then (s.slots.release k).map fun slots => { s with slots } else none
    | none => none

def redeeming : Machine Redeeming FlightEvent where
  Init s := s.slots = .empty ∧ s.sends = [] ∧ s.received = []
  step := flightStep scan

-- ---------------------------------------------------------------------------
-- What a step does
-- ---------------------------------------------------------------------------

/-- An answer that `handleRedeem` gives to the frame, whatever the signer says. -/
def Answers (frame answer : Frame) : Prop :=
  ∃ r, (handleRedeem (fun _ => r) frame).sent = some answer

variable {scan}

inductive FlightStep (s : Redeeming) : Redeeming → Prop
  | drop : FlightStep s s
  | pong (session : Nat) (id : GoString) (written : Bool) :
      FlightStep s { s with sends := ⟨session, { type := framePong, id }, written⟩ :: s.sends }
  | start {slots} (session : Nat) (frame : Frame)
      (h : s.slots.acquire maxInflightRedeems ⟨session, frame, .started⟩ = some slots) :
      FlightStep s { s with slots, received := (session, frame) :: s.received }
  | refuse (session : Nat) (frame : Frame) (written : Bool)
      (h : maxInflightRedeems ≤ s.slots.used) :
      FlightStep s { s with
        sends := ⟨session, tooMany frame.id, written⟩ :: s.sends
        received := (session, frame) :: s.received }
  | call {k f} (hk : s.slots.tasks[k]? = some f) (hphase : f.phase = .started) (envelope : Bytes)
      (hbody : f.frame.body = some envelope) (hne : envelope ≠ []) :
      FlightStep s { s with slots := s.slots.move k { f with phase := .calling envelope } }
  | reply {k f answer written} (hk : s.slots.tasks[k]? = some f) (hphase : f.phase ≠ .replied)
      (hanswer : (∀ e, f.phase = .calling e → f.frame.body = some e ∧ e ≠ []) →
        Answers f.frame answer)
      (htype : answer.type = frameRedeemResponse) (hid : answer.id = f.frame.id) :
      FlightStep s (s.reply k f answer written)
  | release {k f slots} (hk : s.slots.tasks[k]? = some f) (hphase : f.phase = .replied)
      (h : s.slots.release k = some slots) : FlightStep s { s with slots }

theorem flightStep_cases (h : flightStep scan s e = some t) : FlightStep s t := by
  cases e with
  | read session data written =>
    simp only [flightStep] at h
    split at h
    · cases h
    · split at h
      · cases h
        exact .drop
      · rename_i frame _
        split at h
        · cases h
          exact .pong session frame.id written
        · split at h
          · split at h
            · rename_i hslots
              cases h
              exact .start session frame hslots
            · rename_i hslots
              cases h
              exact .refuse session frame written (Slots.acquire_eq_none.mp hslots)
          · cases h
            exact .drop
  | body k written =>
    simp only [flightStep] at h
    split at h
    · rename_i f hk
      split at h
      · rename_i hphase
        split at h
        · rename_i hbody
          cases h
          exact .reply hk (by simp [hphase])
            (fun _ => ⟨none, by simp [handleRedeem, hbody]⟩) rfl rfl
        · rename_i hbody
          cases h
          exact .reply hk (by simp [hphase])
            (fun _ => ⟨none, by simp [handleRedeem, hbody]⟩) rfl rfl
        · rename_i envelope hne hbody
          cases h
          exact .call hk hphase envelope hbody (by rintro rfl; exact hne rfl)
      · cases h
    · cases h
  | answer k r written =>
    simp only [flightStep] at h
    split at h
    · rename_i f hk
      split at h
      · rename_i envelope hphase
        have hhandled (hcalling : ∀ e, f.phase = .calling e → f.frame.body = some e ∧ e ≠ []) :
            (handleRedeem (fun _ => r) f.frame).sent = match r with
              | none => errorFrame f.frame.id .internal "signer unavailable"
              | some (status, body) => Frame.setBody
                  { type := frameRedeemResponse, id := f.frame.id, status }
                    (body.take maxAnswer) := by
          obtain ⟨hbody, hne⟩ := hcalling envelope hphase
          cases envelope with
          | nil => exact absurd rfl hne
          | cons c rest => cases r <;> simp [handleRedeem, hbody, clientRedeem]
        split at h
        · cases h
          exact .reply hk (by simp [hphase]) (fun hc => ⟨none, hhandled hc⟩) rfl rfl
        · cases h
          exact .reply hk (by simp [hphase]) (fun hc => ⟨some _, hhandled hc⟩) rfl rfl
      · cases h
    · cases h
  | release k =>
    simp only [flightStep] at h
    split at h
    · rename_i f hk
      split at h
      · rename_i hphase
        obtain ⟨slots, hslots, rfl⟩ := Option.map_eq_some_iff.mp h
        exact .release hk hphase hslots
      · cases h
    · cases h

-- ---------------------------------------------------------------------------
-- The books
-- ---------------------------------------------------------------------------

/-- The socket and the id that a request or an answer is told by. -/
def label (p : Nat × Frame) : Nat × GoString := (p.1, p.2.id)

def Flight.owes (f : Flight) : Option (Nat × GoString) :=
  if f.phase = .replied then none else some (f.session, f.frame.id)

def Sending.isAnswer (p : Sending) : Bool := p.frame.type = frameRedeemResponse

/-- The answers that were sent. -/
def Redeeming.attempts (s : Redeeming) : List (Nat × Frame) :=
  (s.sends.filter Sending.isAnswer).map fun p => (p.session, p.frame)

/-- The answers that were written as well. -/
def Redeeming.answers (s : Redeeming) : List (Nat × Frame) :=
  (s.sends.filter fun p => p.isAnswer && p.written).map fun p => (p.session, p.frame)

theorem Redeeming.attempts_cons {s t : Redeeming}
    (hsends : t.sends = ⟨session, frame, written⟩ :: s.sends)
    (htype : frame.type = frameRedeemResponse) : t.attempts = (session, frame) :: s.attempts := by
  have hanswer : Sending.isAnswer ⟨session, frame, written⟩ = true := decide_eq_true htype
  rw [Redeeming.attempts, hsends, List.filter_cons_of_pos hanswer, List.map_cons,
    Redeeming.attempts]

theorem Redeeming.attempts_other {s t : Redeeming} (hsends : t.sends = p :: s.sends)
    (hp : p.isAnswer = false) : t.attempts = s.attempts := by
  rw [Redeeming.attempts, hsends, List.filter_cons_of_neg (Bool.eq_false_iff.mp hp),
    Redeeming.attempts]

structure Redeeming.Fair (s : Redeeming) : Prop where
  exact : s.slots.Exact maxInflightRedeems
  calling : ∀ f ∈ s.slots.tasks, ∀ e, f.phase = .calling e → f.frame.body = some e ∧ e ≠ []
  read : ∀ f ∈ s.slots.tasks, (f.session, f.frame) ∈ s.received
  meant : ∀ p ∈ s.attempts, ∃ frame, (p.1, frame) ∈ s.received ∧ p.2.id = frame.id ∧
    (p.2 = tooMany frame.id ∨ Answers frame p.2)
  once : (s.received.map label).Perm
    (s.attempts.map label ++ s.slots.tasks.filterMap Flight.owes)

theorem mem_move {s : Slots Flight} (h : f ∈ (s.move k f').tasks) : f ∈ s.tasks ∨ f = f' :=
  List.mem_or_eq_of_mem_set h

theorem owes_move {s : Slots Flight} (hk : s.tasks[k]? = some f) (f' : Flight) :
    ((s.move k f').tasks.filterMap Flight.owes).Perm
      (f'.owes.toList ++ (s.tasks.eraseIdx k).filterMap Flight.owes) := by
  refine ((Slots.perm_move hk f').filterMap _).trans ?_
  cases hf : f'.owes with
  | none => simp [hf]
  | some p => simp [hf]

theorem owes_get {s : Slots Flight} (hk : s.tasks[k]? = some f) :
    (s.tasks.filterMap Flight.owes).Perm
      (f.owes.toList ++ (s.tasks.eraseIdx k).filterMap Flight.owes) := by
  refine ((Slots.perm_of_get hk).filterMap _).trans ?_
  cases hf : f.owes with
  | none => simp [hf]
  | some p => simp [hf]

namespace Redeeming.Fair

theorem init (h : (redeeming scan).Init s) : s.Fair := by
  obtain ⟨hslots, hsent, hreceived⟩ := h
  refine ⟨by rw [hslots]; exact Slots.exact_empty, ?_, ?_, ?_, ?_⟩
  · simp [hslots, Slots.empty]
  · simp [hslots, Slots.empty]
  · simp [Redeeming.attempts, hsent]
  · simp [Redeeming.attempts, hslots, hsent, hreceived, Slots.empty]

theorem meant_mono {s : Redeeming} (h : s.Fair) (p : Nat × Frame) : ∀ q ∈ s.attempts,
    ∃ frame, (q.1, frame) ∈ p :: s.received ∧ q.2.id = frame.id ∧
      (q.2 = tooMany frame.id ∨ Answers frame q.2) := by
  intro q hq
  obtain ⟨frame, hmem, hrest⟩ := h.meant q hq
  exact ⟨frame, List.mem_cons_of_mem _ hmem, hrest⟩

theorem start {s : Redeeming} {slots : Slots Flight} (h : s.Fair)
    (hslots : s.slots.acquire maxInflightRedeems ⟨session, frame, .started⟩ = some slots) :
    Fair { s with slots, received := (session, frame) :: s.received } := by
  have hexact := h.exact.acquire hslots
  obtain ⟨-, rfl⟩ := Slots.acquire_eq_some hslots
  refine ⟨hexact, ?_, ?_, h.meant_mono _, ?_⟩
  · intro f hf e he
    rcases List.mem_cons.mp hf with rfl | hf
    · cases he
    · exact h.calling f hf e he
  · intro f hf
    rcases List.mem_cons.mp hf with rfl | hf
    · exact List.mem_cons_self
    · exact List.mem_cons_of_mem _ (h.read f hf)
  · have howes : Flight.owes ⟨session, frame, .started⟩ = some (session, frame.id) := rfl
    rw [List.map_cons, List.filterMap_cons_some howes]
    exact (h.once.cons _).trans List.perm_middle.symm

theorem refuse {s : Redeeming} (h : s.Fair) : Fair { s with
    sends := ⟨session, tooMany frame.id, written⟩ :: s.sends
    received := (session, frame) :: s.received } := by
  have hanswers : Redeeming.attempts { s with
      sends := ⟨session, tooMany frame.id, written⟩ :: s.sends
      received := (session, frame) :: s.received } = (session, tooMany frame.id) :: s.attempts :=
    Redeeming.attempts_cons rfl rfl
  refine ⟨h.exact, h.calling, fun f hf => List.mem_cons_of_mem _ (h.read f hf), ?_, ?_⟩
  · rw [hanswers]
    intro q hq
    rcases List.mem_cons.mp hq with rfl | hq
    · exact ⟨frame, List.mem_cons_self, rfl, .inl rfl⟩
    · exact h.meant_mono _ q hq
  · rw [hanswers]
    exact h.once.cons _

theorem reply {s : Redeeming} (h : s.Fair) (hk : s.slots.tasks[k]? = some f)
    (hphase : f.phase ≠ .replied)
    (hanswer : (∀ e, f.phase = .calling e → f.frame.body = some e ∧ e ≠ []) →
      Answers f.frame answer)
    (htype : answer.type = frameRedeemResponse) (hid : answer.id = f.frame.id) :
    (s.reply k f answer written).Fair := by
  have hf : f ∈ s.slots.tasks := List.mem_of_getElem? hk
  have hanswers : (s.reply k f answer written).attempts = (f.session, answer) :: s.attempts :=
    Redeeming.attempts_cons rfl htype
  refine ⟨h.exact.move k _, ?_, ?_, ?_, ?_⟩
  · intro f' hf' e he
    rcases mem_move hf' with hf' | rfl
    · exact h.calling f' hf' e he
    · cases he
  · intro f' hf'
    rcases mem_move hf' with hf' | rfl
    · exact h.read f' hf'
    · exact h.read f hf
  · rw [hanswers]
    intro q hq
    rcases List.mem_cons.mp hq with rfl | hq
    · exact ⟨f.frame, h.read f hf, hid, .inr (hanswer (h.calling f hf))⟩
    · exact h.meant q hq
  · -- The answer leaves the goroutine's account and goes on record.
    have howes : f.owes = some (f.session, f.frame.id) := if_neg hphase
    have hnone : Flight.owes { f with phase := .replied } = none := rfl
    rw [hanswers, List.map_cons, label, hid]
    have hafter := owes_move hk { f with phase := .replied }
    have hbefore := owes_get hk
    rw [hnone, Option.toList_none, List.nil_append] at hafter
    rw [howes, Option.toList_some, List.singleton_append] at hbefore
    refine (h.once.trans (hbefore.append_left _)).trans ?_
    exact List.perm_middle.trans ((hafter.symm.append_left _).cons _)

theorem call {s : Redeeming} (h : s.Fair) (hk : s.slots.tasks[k]? = some f)
    (hphase : f.phase = .started) (hbody : f.frame.body = some envelope) (hne : envelope ≠ []) :
    Fair { s with slots := s.slots.move k { f with phase := .calling envelope } } := by
  have hf : f ∈ s.slots.tasks := List.mem_of_getElem? hk
  refine ⟨h.exact.move k _, ?_, ?_, h.meant, ?_⟩
  · intro f' hf' e he
    rcases mem_move hf' with hf' | rfl
    · exact h.calling f' hf' e he
    · cases he
      exact ⟨hbody, hne⟩
  · intro f' hf'
    rcases mem_move hf' with hf' | rfl
    · exact h.read f' hf'
    · exact h.read f hf
  · have hsame : Flight.owes { f with phase := .calling envelope } = f.owes := by
      simp [Flight.owes, hphase]
    have hafter := owes_move hk { f with phase := .calling envelope }
    rw [hsame] at hafter
    exact h.once.trans (((owes_get hk).trans hafter.symm).append_left _)

theorem release {s : Redeeming} {slots : Slots Flight} (h : s.Fair)
    (hk : s.slots.tasks[k]? = some f) (hphase : f.phase = .replied)
    (hslots : s.slots.release k = some slots) :
    Fair { s with slots } := by
  have hexact := h.exact.release hk hslots
  cases (h.exact.release_isSome hk).symm.trans hslots
  have hsub {f' : Flight} (hf' : f' ∈ s.slots.tasks.eraseIdx k) : f' ∈ s.slots.tasks :=
    List.mem_of_mem_eraseIdx hf'
  refine ⟨hexact, fun f' hf' => h.calling f' (hsub hf'), fun f' hf' => h.read f' (hsub hf'),
    h.meant, ?_⟩
  have hbefore := owes_get hk
  rw [show f.owes = none from if_pos hphase, Option.toList_none, List.nil_append] at hbefore
  exact h.once.trans (hbefore.append_left _)

theorem step {s t : Redeeming} (h : s.Fair) (hstep : FlightStep s t) : t.Fair := by
  cases hstep with
  | drop => exact h
  | pong session id written =>
    have hother : framePong ≠ frameRedeemResponse := by decide
    have hanswers : Redeeming.attempts { s with
        sends := ⟨session, { type := framePong, id }, written⟩ :: s.sends } = s.attempts :=
      Redeeming.attempts_other rfl (decide_eq_false hother)
    refine ⟨h.exact, h.calling, h.read, ?_, ?_⟩
    · rw [hanswers]
      exact h.meant
    · rw [hanswers]
      exact h.once
  | start session frame hslots => exact h.start hslots
  | refuse session frame written _ => exact h.refuse
  | call hk hphase envelope hbody hne => exact h.call hk hphase hbody hne
  | reply hk hphase hanswer htype hid => exact h.reply hk hphase hanswer htype hid
  | release hk hphase hslots => exact h.release hk hphase hslots

theorem reachable (hs : (redeeming scan).Reachable ok s) : s.Fair :=
  hs.invariant (I := Redeeming.Fair) (fun _ => init) fun _ _ _ h _ hstep =>
    h.step (flightStep_cases hstep)

end Redeeming.Fair

namespace Sample

end Sample

end Grantd.Daemon
