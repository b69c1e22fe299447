import Grantd.Warden.Closing

/-!
# The monotonic deadline

`Attach` and `pollSigner` set it anew from the signer's expiry and the wall
clock, so a grant keeps its first deadline only as long as the wall clock keeps
up with the monotonic one and the signer with its answers. `Consistent` says so
of the readings themselves, which `Anchored` keeps beside the state.
-/

namespace Grantd.Warden

open Base

/-- A deadline that is set again: the object, the signer's expiry and the wall
second the time left is counted from. -/
structure Reset where
  addr : Nat
  expiresAt : Int64
  now : Int64
  deriving DecidableEq, Repr

def resets (s : State) : Action → Option Reset
  | .attach i _ =>
    match s.attaches i with
    | .timed job now =>
      match s.shared.warden.addr? job.p.grantID with
      | some a =>
        if (s.shared.warden.heap a).state = .opened then some ⟨a, job.info.expiresAt, now⟩
        else none
      | none => none
    | _ => none
  | .run _ =>
    match s.loop with
    | .polled _ id (.ok info) =>
      match s.shared.warden.addr? id with
      | some a =>
        if (s.shared.warden.heap a).state = .opened ∧ info.revokedAt = none ∧
            s.clock.wall < info.expiresAt ∧ info.expiresAt < (s.shared.warden.heap a).deadline then
          some ⟨a, info.expiresAt, s.clock.wall⟩
        else none
      | none => none
    | _ => none
  | _ => none

/-- The object an action is about to make, with its first deadline. -/
def creates (s : State) : Action → Option Reset
  | .attach i _ =>
    match s.attaches i with
    | .timed job now =>
      match s.shared.warden.addr? job.p.grantID with
      | none => some ⟨s.shared.warden.next, job.info.expiresAt, now⟩
      | some _ => none
    | _ => none
  | _ => none

def sets (s : State) (act : Action) : Option Reset := (resets s act).or (creates s act)

/-- A state with the readings each deadline was last set from: the wall second
the time left was counted from, and the monotonic time it was added to. -/
structure Anchored where
  state : State
  anchor : Nat → Clock

abbrev Anchored.warden (s : Anchored) : Warden := s.state.shared.warden

def SetFrom (c : Clock) (g : Grant) : Prop :=
  g.deadlineMono = some (c.mono + (g.deadline.toInt - c.wall.toInt) * second)

def anchoring (cfg : Config) : Machine Anchored Action where
  Init s := Initial cfg s.state ∧
    ∀ a < s.warden.next, (s.warden.heap a).state = .opened →
      SetFrom (s.anchor a) (s.warden.heap a)
  step s act := (step cfg s.state act).map fun t =>
    ⟨t, match sets s.state act with
      | some x => Function.update s.anchor x.addr ⟨x.now, s.state.clock.mono⟩
      | none => s.anchor⟩

/-- Every time left is a `time.Duration`. A deadline that is set again does not
go by a later expiry than the one on record, and from the readings it was last
set from to those of now the wall clock, in whole seconds, has moved on by no
less than the monotonic one. -/
structure Consistent (s : Anchored) (act : Action) : Prop where
  fits : ∀ x ∈ sets s.state act, (x.expiresAt.toInt - x.now.toInt).natAbs ≤ 9223372036
  expiry : ∀ x ∈ resets s.state act, x.expiresAt ≤ (s.warden.heap x.addr).deadline
  clocks : ∀ x ∈ resets s.state act,
    s.state.clock.mono - (s.anchor x.addr).mono ≤
      (x.now.toInt - (s.anchor x.addr).wall.toInt) * second

instance (s : Anchored) (act : Action) : Decidable (Consistent s act) :=
  decidable_of_iff
    ((∀ x ∈ sets s.state act, (x.expiresAt.toInt - x.now.toInt).natAbs ≤ 9223372036) ∧
      (∀ x ∈ resets s.state act, x.expiresAt ≤ (s.warden.heap x.addr).deadline) ∧
      ∀ x ∈ resets s.state act, s.state.clock.mono - (s.anchor x.addr).mono ≤
        (x.now.toInt - (s.anchor x.addr).wall.toInt) * second)
    ⟨fun ⟨hf, he, hc⟩ => ⟨hf, he, hc⟩, fun ⟨hf, he, hc⟩ => ⟨hf, he, hc⟩⟩

theorem timeLeft_toInt (h : (expiresAt.toInt - now.toInt).natAbs ≤ 9223372036) :
    (timeLeft expiresAt now).toInt = (expiresAt.toInt - now.toInt) * second := by
  have hs : (1000000000 : Int64).toInt = 1000000000 := by decide
  simp only [timeLeft, Int64.toInt_mul, Int64.toInt_sub, hs, second, Int.bmod_def]
  omega

section
variable {cfg : Config} {s t : State}

def Reset.write (x : Reset) (s : State) (g : Grant) : Grant :=
  setDeadline x.expiresAt s.clock.mono (timeLeft x.expiresAt x.now) g

theorem Reset.write_setFrom (x : Reset) (s : State) (g : Grant)
    (h : (x.expiresAt.toInt - x.now.toInt).natAbs ≤ 9223372036) :
    SetFrom ⟨x.now, s.clock.mono⟩ (x.write s g) := by
  simp only [SetFrom, Reset.write, setDeadline, timeLeft_toInt h]

theorem step_resets (h : step cfg s act = some t) (hx : resets s act = some x) :
    t.shared.warden.heap x.addr = x.write s (s.shared.warden.heap x.addr) := by
  cases act with
  | attach i r =>
    simp only [resets] at hx
    split at hx
    · rename_i job now hst
      split at hx
      · rename_i a haddr
        split at hx <;> cases hx
        rename_i hopen
        have htrack : s.shared.warden.track job.p.grantID job.info.expiresAt s.clock.mono
            (timeLeft job.info.expiresAt now) = .ok (a, s.shared.warden.write a
              (setDeadline job.info.expiresAt s.clock.mono (timeLeft job.info.expiresAt now)
                (s.shared.warden.heap a))) := by
          simp only [track, haddr, hopen, if_true]
          rfl
        simp only [step, attachNext, hst, htrack] at h
        cases h
        simp only [heap_write, if_true, Reset.write]
      · cases hx
    · cases hx
  | run r =>
    simp only [resets] at hx
    split at hx
    · rename_i todo id info hst
      split at hx
      · rename_i a haddr
        split at hx <;> cases hx
        rename_i hcond
        obtain ⟨hopen, hrev, hwall, hless⟩ := hcond
        simp only [step, loopNext, hst] at h
        cases h
        simp only [Shared.kill_warden, applyPoll, haddr, hopen, if_true, heap_write, pollGrant,
          hrev, Option.isSome_none, Bool.false_eq_true, if_false, Int64.not_le.mpr hwall, hless,
          Reset.write]
      · cases hx
    · cases hx
  | tick | admitStart | admitStep | attachStart | exit | fork | collect => cases hx

theorem step_creates (h : step cfg s act = some t) (hx : creates s act = some x) :
    x.addr = s.shared.warden.next ∧ ∃ g, t.shared.warden.heap x.addr = x.write s g := by
  cases act with
  | attach i r =>
    simp only [creates] at hx
    split at hx
    · rename_i job now hst
      split at hx <;> cases hx
      rename_i haddr
      simp only [step, attachNext, hst, track, haddr] at h
      cases h
      exact ⟨rfl, _, Function.update_self ..⟩
    · cases hx
  | tick | admitStart | admitStep | attachStart | run | exit | fork | collect => cases hx

theorem resets_opened (hx : resets s act = some x) :
    (s.shared.warden.heap x.addr).state = .opened := by
  unfold resets at hx
  split at hx
  · split at hx
    · split at hx
      · split at hx <;> cases hx
        assumption
      · cases hx
    · cases hx
  · split at hx
    · split at hx
      · split at hx <;> cases hx
        rename_i hcond
        exact hcond.1
      · cases hx
    · cases hx
  · cases hx

theorem resets_of_creates (hx : creates s act = some x) : resets s act = none := by
  unfold creates at hx
  split at hx
  · split at hx
    · rename_i hst
      split at hx <;> cases hx
      rename_i haddr
      simp [resets, hst, haddr]
    · cases hx
  · cases hx

theorem step_new (h : step cfg s act = some t) (ha : a < t.shared.warden.next) :
    a < s.shared.warden.next ∨ ∃ x, creates s act = some x ∧ x.addr = a := by
  have hsec := step_section cfg h
  generalize t.shared.warden = w at hsec ha
  cases hsec with
  | @track i job now a' _ r hst hw =>
    obtain ⟨-, -, rfl⟩ | ⟨hnone, -, rfl⟩ := track_eq_ok hw
    · exact .inl ha
    · rcases Nat.lt_succ_iff_lt_or_eq.mp ha with hlt | rfl
      · exact .inl hlt
      · exact .inr ⟨⟨_, job.info.expiresAt, now⟩, by simp [creates, hst, hnone], rfl⟩
  | record hst hw =>
    obtain ⟨-, rfl⟩ := recordPending_eq_ok hw
    exact .inl ha
  | attach hst hw =>
    obtain ⟨-, rfl⟩ := attachSession_eq_ok hw
    exact .inl ha
  | poll =>
    unfold applyPoll at ha
    split at ha
    · exact .inl ha
    · split at ha <;> exact .inl ha
  | none | take | enforce | expire | prune | term | remaining | close | forget => exact .inl ha

theorem Moves.deadline (h : Moves cfg s act a g) (hx : ∀ x ∈ resets s act, x.addr ≠ a) :
    g.deadline = (s.shared.warden.heap a).deadline ∧
      g.deadlineMono = (s.shared.warden.heap a).deadlineMono := by
  cases h with
  | @retrack i job now _ r hst haddr hopen =>
    exact absurd rfl (hx ⟨a, job.info.expiresAt, now⟩ (by simp [resets, hst, haddr, hopen]))
  | @shorten _ info _ r _ hst haddr hopen hrev hwall hless =>
    exact absurd rfl (hx ⟨a, info.expiresAt, s.clock.wall⟩
      (by simp [resets, hst, haddr, hopen, hrev, hwall, hless]))
  | same | close | attach | prune | term | remaining | closed => exact ⟨rfl, rfl⟩

end

-- ---------------------------------------------------------------------------
-- Runs
-- ---------------------------------------------------------------------------

section
variable {cfg : Config} {s t : Anchored}

theorem anchoring_step (h : (anchoring cfg).step s act = some t) :
    step cfg s.state act = some t.state ∧
      t.anchor = match sets s.state act with
        | some x => Function.update s.anchor x.addr ⟨x.now, s.state.clock.mono⟩
        | none => s.anchor := by
  obtain ⟨u, hstep, rfl⟩ := Option.map_eq_some_iff.mp h
  exact ⟨hstep, rfl⟩

theorem anchoring_reachable (hs : (anchoring cfg).Reachable ok s) :
    (machine cfg).Reachable (fun _ _ => True) s.state := by
  refine hs.invariant (I := fun s => (machine cfg).Reachable (fun _ _ => True) s.state) ?_ ?_
  · intro s hinit
    exact .of_init hinit.1
  · intro s act t hI _ hstep
    exact hI.step trivial (anchoring_step hstep).1

/-- Every deadline of an Open object has been set from its anchor. -/
def Anchors (s : Anchored) : Prop :=
  ∀ a < s.warden.next, (s.warden.heap a).state = .opened → SetFrom (s.anchor a) (s.warden.heap a)

theorem Anchors.step (h : Anchors s) (hok : Consistent s act)
    (hstep : (anchoring cfg).step s act = some t) : Anchors t := by
  obtain ⟨hbase, hanchor⟩ := anchoring_step hstep
  intro a ha hopen
  by_cases hset : ∃ x, sets s.state act = some x ∧ x.addr = a
  · obtain ⟨x, hx, rfl⟩ := hset
    have hfits := hok.fits x hx
    rw [hanchor, hx]
    simp only [Function.update_self]
    rcases Option.or_eq_some_iff.mp hx with hx | ⟨-, hx⟩
    · rw [Anchored.warden, step_resets hbase hx]
      exact x.write_setFrom s.state _ hfits
    · obtain ⟨-, g, hg⟩ := step_creates hbase hx
      rw [Anchored.warden, hg]
      exact x.write_setFrom s.state g hfits
  · -- The deadline is not touched, so the object is an old one.
    have hlt : a < s.warden.next := by
      refine (step_new hbase ha).resolve_right ?_
      rintro ⟨x, hx, rfl⟩
      exact hset ⟨x, by simp [sets, resets_of_creates hx, hx], rfl⟩
    have hkeep : t.anchor a = s.anchor a := by
      rw [hanchor]
      split
      · rename_i x hx
        exact Function.update_of_ne (fun heq => hset ⟨x, hx, heq.symm⟩) _ _
      · rfl
    have hmoves := (step_section cfg hbase).moves cfg hlt
    obtain ⟨hdeadline, hmono⟩ := hmoves.deadline fun x hx heq =>
      hset ⟨x, by simp [sets, Option.mem_def.mp hx], heq⟩
    have hold := h a hlt (hmoves.opened hopen)
    simp only [SetFrom, hkeep, hdeadline, hmono] at hold ⊢
    exact hold

theorem Anchors.reachable (hs : (anchoring cfg).Reachable Consistent s) : Anchors s := by
  refine hs.invariant (I := Anchors) ?_ ?_
  · intro s hinit
    exact hinit.2
  · intro s act t h hok hstep
    exact h.step hok hstep

theorem Consistent.le (hok : Consistent s act) (hx : resets s.state act = some x)
    (hold : SetFrom (s.anchor x.addr) (s.warden.heap x.addr))
    (hd : (s.warden.heap x.addr).deadlineMono = some d) :
    ∃ d' ≤ d, (x.write s.state g).deadlineMono = some d' := by
  have hfits := hok.fits x (by simp [sets, hx])
  have hexp := Int64.le_iff_toInt_le.mp (hok.expiry x hx)
  have hclocks := hok.clocks x hx
  refine ⟨_, ?_, x.write_setFrom s.state g hfits⟩
  cases hd.symm.trans hold
  simp only [Reset.write, setDeadline, second] at hclocks ⊢
  omega

theorem deadlineMono_run (hs : (anchoring cfg).Reachable Consistent s)
    (hrun : (anchoring cfg).Run Consistent s t) (ha : a < s.warden.next)
    (hd : (s.warden.heap a).deadlineMono = some d) :
    a < t.warden.next ∧ ∃ d' ≤ d, (t.warden.heap a).deadlineMono = some d' := by
  induction hrun with
  | refl => exact ⟨ha, d, le_refl d, hd⟩
  | @step t u act hrun hok hstep ih =>
    obtain ⟨hlt, d', hle, hd'⟩ := ih
    obtain ⟨hbase, -⟩ := anchoring_step hstep
    have hsec := step_section cfg hbase
    refine ⟨hlt.trans_le hsec.map.next_le, ?_⟩
    by_cases hset : ∃ x, resets t.state act = some x ∧ x.addr = a
    · obtain ⟨x, hx, rfl⟩ := hset
      have hold := Anchors.reachable (hs.run hrun) x.addr hlt (resets_opened hx)
      obtain ⟨d'', hle', hd''⟩ := hok.le hx hold hd'
      exact ⟨d'', hle'.trans hle, by rw [Anchored.warden, step_resets hbase hx, hd'']⟩
    · have hkeep := (hsec.moves cfg hlt).deadline fun x hx heq => hset ⟨x, hx, heq⟩
      exact ⟨d', hle, hkeep.2.trans hd'⟩

theorem enforceDeadlines_closes {w : Warden} (hm : w.mapped a = true)
    (hd : (∃ d ∈ (w.heap a).deadlineMono, d ≤ mono) ∨ (w.heap a).deadline ≤ now) :
    ((w.enforceDeadlines now mono).heap a).state ≠ .opened := by
  simp only [enforceDeadlines, heap_forEach, hm, if_true, enforceDeadline, closeLocked]
  split
  · rename_i h
    simp [h.1]
  · rename_i h
    exact fun hopen => h ⟨hopen, hd⟩

/-- In every run whose deadlines are all set from consistent readings, the
monotonic deadline of a grant that is tracked as Open is where the readings it
was last set from put it, it never moves later, and the first tick at or after
it finds the grant closed or closes it. -/
theorem deadline_never_later (hs : (anchoring cfg).Reachable Consistent s)
    (ha : a < s.warden.next) (hopen : (s.warden.heap a).state = .opened) :
    ∃ d, (s.warden.heap a).deadlineMono = some d ∧
      d = (s.anchor a).mono +
        ((s.warden.heap a).deadline.toInt - (s.anchor a).wall.toInt) * second ∧
      ∀ t, (anchoring cfg).Run Consistent s t →
        (∃ d' ≤ d, (t.warden.heap a).deadlineMono = some d') ∧
        ∀ now mono r, t.state.loop = .enforcing now mono → d ≤ mono →
          ∃ u, (anchoring cfg).step t (.run r) = some u ∧
            (u.warden.heap a).state ≠ .opened := by
  have hd := Anchors.reachable hs a ha hopen
  refine ⟨_, hd, rfl, fun t hrun => ?_⟩
  obtain ⟨hlt, d', hle, hd'⟩ := deadlineMono_run hs hrun ha hd
  refine ⟨⟨d', hle, hd'⟩, fun now mono r hloop hmono => ?_⟩
  have hstep : step cfg t.state (.run r) = some { t.state with
      loop := .enforced
      shared := { t.state.shared with warden := t.warden.enforceDeadlines now mono } } := by
    simp [step, hloop, loopNext]
  refine ⟨_, Option.map_eq_some_iff.mpr ⟨_, hstep, rfl⟩, ?_⟩
  cases hm : t.warden.mapped a with
  | true => exact enforceDeadlines_closes hm (.inl ⟨d', hd', hle.trans hmono⟩)
  | false =>
    -- An object outside the map has long been Closed.
    have hobj := (Inv.reachable (anchoring_reachable (hs.run hrun))).objects
    have hclosed : (t.warden.heap a).state = .closed := by
      by_contra hne
      have := hobj.unmapped a hlt hne
      simp [hm] at this
    show ((t.warden.enforceDeadlines now mono).heap a).state ≠ .opened
    simp [enforceDeadlines, hm, hclosed]

end

-- ---------------------------------------------------------------------------
-- Reconnecting
-- ---------------------------------------------------------------------------

def Answer.Says (expiry : GoString → Int64) : Answer → Prop
  | .ok info => info.expiresAt = expiry info.id
  | .error _ => True

instance (expiry : GoString → Int64) : DecidablePred (Answer.Says expiry)
  | .ok info => inferInstanceAs (Decidable (info.expiresAt = expiry info.id))
  | .error _ => inferInstanceAs (Decidable True)

/-- The monotonic clock does not go back, and the signer keeps every expiry. -/
def Steady (expiry : GoString → Int64) (s : State) : Action → Prop
  | .tick c => s.clock.mono ≤ c.mono
  | .admitStep _ r | .attach _ r | .run r => r.answer.Says expiry
  | _ => True

instance (expiry : GoString → Int64) (s : State) : DecidablePred (Steady expiry s)
  | .tick c => inferInstanceAs (Decidable (s.clock.mono ≤ c.mono))
  | .admitStep _ r | .attach _ r | .run r => inferInstanceAs (Decidable (r.answer.Says expiry))
  | .admitStart .. | .attachStart .. | .exit .. | .fork .. | .collect .. =>
    inferInstanceAs (Decidable True)

namespace Sample

def connected : List Action :=
  admission 0 4242 ++ tracking 0 4242 ++ placing 0 4242 ++ [.attach 0 (reading 4242)]

def reconnected (wall : Int64) : List Action :=
  .tick ⟨wall, 10 * second⟩ :: admission 1 5252 ++ tracking 1 5252

def monoDeadline (s : State) : Option Int := (s.shared.warden.heap 0).deadlineMono

def anchored : Anchored := ⟨initial, fun _ => ⟨0, 0⟩⟩

theorem anchored_reachable : (anchoring config).Reachable ok anchored := by
  refine .of_init ⟨⟨rfl, nofun, nofun, ?_, rfl, fun _ => rfl, fun _ => rfl, rfl, rfl⟩, nofun⟩
  exact fun _ h => absurd rfl h

end Sample

/-- With ten seconds gone on the wall clock as well, the deadline stays, and
the tick that reaches it closes. -/
theorem deadline_never_later_reconnect : ∃ s t u,
    (anchoring Sample.config).Reachable Consistent s ∧
    (anchoring Sample.config).Run Consistent s t ∧
    (resets s.state (.attach 1 (Sample.reading 5252))).isSome = true ∧
    s.anchor 0 = ⟨1000, 0⟩ ∧ t.anchor 0 = ⟨1010, 10 * second⟩ ∧
    Sample.monoDeadline s.state = some (1000 * second) ∧
    Sample.monoDeadline t.state = some (1000 * second) ∧
    (anchoring Sample.config).step t (.run (Sample.reading 5252)) = some u ∧
    (u.warden.heap 0).state ≠ .opened := by
  have hexec : ((anchoring Sample.config).exec Consistent Sample.anchored
      (Sample.connected ++ (Sample.reconnected 1010).dropLast)).any (fun s =>
        decide (0 < s.warden.next) && (s.warden.heap 0).state == .opened &&
        s.anchor 0 == ⟨1000, 0⟩ && Sample.monoDeadline s.state == some (1000 * second) &&
        (resets s.state (.attach 1 (Sample.reading 5252))).isSome &&
        ((anchoring Sample.config).exec Consistent s [.attach 1 (Sample.reading 5252),
          .tick ⟨1999, 1000 * second⟩, .run (Sample.reading 5252)]).any fun t =>
            Sample.monoDeadline t.state == some (1000 * second) &&
            t.anchor 0 == ⟨1010, 10 * second⟩ &&
            match t.state.loop with
            | .enforcing _ mono => mono == 1000 * second
            | _ => false) = true := by
    decide +kernel
  obtain ⟨s, hs, hprop⟩ := Option.any_eq_true .. |>.mp hexec
  simp only [Bool.and_eq_true, beq_iff_eq, decide_eq_true_eq] at hprop
  obtain ⟨⟨⟨⟨⟨hnext, hopen⟩, hanchor⟩, hd⟩, hreset⟩, htail⟩ := hprop
  obtain ⟨t, ht, hprop⟩ := Option.any_eq_true .. |>.mp htail
  simp only [Bool.and_eq_true, beq_iff_eq] at hprop
  obtain ⟨⟨hd', hanchor'⟩, hloop⟩ := hprop
  have hreach : (anchoring Sample.config).Reachable Consistent s :=
    Sample.anchored_reachable.run (.of_exec hs)
  have hrun := Machine.Run.of_exec ht
  obtain ⟨d, hfirst, -, hlater⟩ := deadline_never_later hreach hnext hopen
  cases hfirst.symm.trans hd
  split at hloop
  · rename_i hst
    obtain ⟨u, hu, hclosed⟩ :=
      (hlater t hrun).2 _ _ (Sample.reading 5252) hst (beq_iff_eq.mp hloop).ge
    exact ⟨s, t, u, hreach, hrun, hreset, hanchor, hanchor', hd, hd', hu, hclosed⟩
  · cases hloop

/-- With the wall clock set back to 500 before the second connection, the
deadline moves 510 s later, and the tick at the first one leaves the grant
Open. -/
theorem deadline_moves_later : ∃ s t u,
    (machine Sample.config).Reachable (Steady fun _ => 2000) s ∧
    (machine Sample.config).Run (Steady fun _ => 2000) s t ∧
    (s.shared.warden.heap 0).state = .opened ∧
    Sample.monoDeadline s = some (1000 * second) ∧ Sample.monoDeadline t = some (1510 * second) ∧
    t.loop = .enforcing 1490 (1000 * second) ∧
    (machine Sample.config).step t (.run (Sample.reading 5252)) = some u ∧
    (u.shared.warden.heap 0).state = .opened := by
  have hexec : ((machine Sample.config).exec (Steady fun _ => 2000) Sample.initial
      Sample.connected).any (fun s =>
        (s.shared.warden.heap 0).state == .opened &&
        Sample.monoDeadline s == some (1000 * second) &&
        ((machine Sample.config).exec (Steady fun _ => 2000) s (Sample.reconnected 500 ++
          [.tick ⟨1490, 1000 * second⟩, .run (Sample.reading 5252)])).any fun t =>
            Sample.monoDeadline t == some (1510 * second) &&
            (match t.loop with
              | .enforcing now mono => now == 1490 && mono == 1000 * second
              | _ => false) &&
            ((machine Sample.config).step t (.run (Sample.reading 5252))).any fun u =>
              (u.shared.warden.heap 0).state == .opened) = true := by
    decide +kernel
  obtain ⟨s, hs, hprop⟩ := Option.any_eq_true .. |>.mp hexec
  simp only [Bool.and_eq_true, beq_iff_eq] at hprop
  obtain ⟨⟨hopen, hd⟩, htail⟩ := hprop
  obtain ⟨t, ht, hprop⟩ := Option.any_eq_true .. |>.mp htail
  simp only [Bool.and_eq_true, beq_iff_eq] at hprop
  obtain ⟨⟨hd', hloop⟩, hstep⟩ := hprop
  obtain ⟨u, hu, hlast⟩ := Option.any_eq_true .. |>.mp hstep
  refine ⟨s, t, u, Sample.initial_reachable.run (.of_exec hs), .of_exec ht, hopen, hd, hd', ?_,
    hu, beq_iff_eq.mp hlast⟩
  split at hloop
  · rename_i hst
    simp only [Bool.and_eq_true, beq_iff_eq] at hloop
    rw [hst, hloop.1, hloop.2]
  · cases hloop

end Grantd.Warden
