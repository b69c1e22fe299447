import Grantd.Warden.Supervision
import Grantd.Warden.Timing

/-!
# The passes of `terminate`

The machine in time, with a kernel in which `cgroup.kill` dooms the tasks that
are then in the subtree and leaves it to them when they exit, and with a record
of what every pass of `terminate` found and did. A doomed task may ignore
everything for a while, and what it forks is doomed as well.
-/

namespace Grantd.Warden

open Base

def LoopState.passing : LoopState → Option Nat
  | .sent _ a _ | .signal _ a _ | .signalled _ a | .list _ a | .listed _ a _ | .finalize _ a
  | .stopped _ a => some a
  | _ => none

/-- One pass of `terminate`: whether the cgroup existed, whether `cgroup.kill`
was written, what `Populated` said, and whether the grant was set to Closed. -/
structure Pass where
  addr : Nat
  now : Int
  present : Bool
  killed : Bool
  populated : Option Bool
  closed : Bool
  deriving DecidableEq, Repr

/-- For the record, `firstPass` and `firstKill` say when `terminate` first came
to an object and when it first wrote the `cgroup.kill` of its slice. -/
structure Watch where
  timed : Timed
  doomed : GoString → List Int
  firstPass : Nat → Option Int
  firstKill : Nat → Option Int
  current : Option Pass
  passes : List Pass

namespace Watch

abbrev state (s : Watch) : State := s.timed.state
abbrev now (s : Watch) : Int := s.timed.now
abbrev warden (s : Watch) : Warden := s.state.shared.warden

variable (cfg : Config)

def tasks (s : Watch) (a : Nat) : List Task :=
  (s.state.shared.slices (s.state.shared.unit cfg a)).tasks

/-- The marks that the kernel keeps. A new task in a slice has none, unless it
was forked by one that has. -/
def doom (s : Watch) (k : Option Kill) : Action → GoString → List Int
  | .run _ =>
    match k with
    | some ⟨a, true⟩ =>
      Function.update s.doomed (s.state.shared.unit cfg a) ((s.tasks cfg a).map (·.pid))
    | some ⟨_, false⟩ | none => s.doomed
  | .exit unit pid => Function.update s.doomed unit ((s.doomed unit).filter (· ≠ pid))
  | .fork unit parent child =>
    Function.update s.doomed unit
      (if parent ∈ s.doomed unit then child :: s.doomed unit
      else (s.doomed unit).filter (· ≠ child))
  | .attach i r =>
    match s.state.attaches i with
    | .sliced j =>
      if r.placed then Function.update s.doomed (j.unit cfg)
        ((s.doomed (j.unit cfg)).filter (· ≠ j.job.sshd.pid))
      else s.doomed
    | _ => s.doomed
  | _ => s.doomed

def note (s : Watch) (r : Reading) (k : Option Kill) : Option Pass :=
  match s.state.loop with
  | .closing todo => todo[r.pick]?.map fun a => ⟨a, s.now, false, false, none, false⟩
  | .sent _ a _ => s.current.map fun p =>
      { p with present := (s.state.shared.slices (s.state.shared.unit cfg a)).present }
  | .signal .. => s.current.map fun p => { p with killed := k.isSome }
  | .signalled _ a => s.current.map fun p =>
      { p with populated := if r.ok then some !(s.tasks cfg a).isEmpty else none }
  | .stopped .. => s.current.map fun p => { p with closed := true }
  | _ => s.current

def after (s : Watch) (act : Action) (k : Option Kill) (t : State) : Watch :=
  let current := match act with
    | .run r => s.note cfg r k
    | _ => s.current
  { timed := s.timed.after act t
    doomed := s.doom cfg k act
    firstPass :=
      match act, s.state.loop with
      | .run r, .closing todo =>
        match todo[r.pick]? with
        | some a => Function.update s.firstPass a (some ((s.firstPass a).getD s.now))
        | none => s.firstPass
      | _, _ => s.firstPass
    firstKill :=
      match k with
      | some x => Function.update s.firstKill x.addr (some ((s.firstKill x.addr).getD s.now))
      | none => s.firstKill
    current := if t.loop.passing.isSome then current else none
    passes := if t.loop.passing.isSome then s.passes else s.passes ++ current.toList }

end Watch

/-- A step in which `cgroup.kill` takes no task away. -/
def linger (cfg : Config) (s : State) : Action → Option (State × Option Kill)
  | .run r =>
    match loopNext cfg s.clock r s.shared s.lastPoll s.loop with
    | none => none
    | some (loop, lastPoll, shared, kill) => some ({ s with loop, lastPoll, shared }, kill)
  | act => (step cfg s act).map fun t => (t, none)

def reaping (cfg : Config) : Machine Watch Action where
  Init s := Initial cfg s.state ∧
    (∀ a < s.warden.next, (s.warden.heap a).state = .closing →
      (s.warden.heap a).termSent = false) ∧
    s.timed.Fresh ∧ s.firstPass = (fun _ => none) ∧ s.firstKill = (fun _ => none) ∧
    s.current = none ∧ s.passes = []
  step s act := (linger cfg s.state act).map fun x => s.after cfg act x.2 x.1

/-- A tick every second; the signer and systemd answer at once. -/
def Ticking (s : Watch) (act : Action) : Prop := Paced s.timed act ∧ Brisk 0 s.timed act

instance (s : Watch) (act : Action) : Decidable (Ticking s act) :=
  inferInstanceAs (Decidable (_ ∧ _))

def Action.tick? : Action → Option Clock
  | .tick c => some c
  | _ => none

/-- The object whose `cgroup.kill` or `cgroup.events` an action opens, and
whether that works. -/
def opens (s : State) : Action → Option (Nat × Bool)
  | .run r =>
    match s.loop with
    | .signal _ a _ | .signalled _ a => some (a, r.ok)
    | _ => none
  | _ => none

/-- Also, about the object at `a`: its cgroup files can be opened, a doomed task
of its slice is gone `K` after the first `cgroup.kill`, and while it is Closing
no scope is started in its slice. -/
structure Dying (cfg : Config) (K a : Nat) (s : Watch) (act : Action) : Prop where
  ticking : Ticking s act
  works : ∀ x ∈ opens s.state act, x.1 = a → x.2 = true
  mortal : ∀ c ∈ act.tick?, ∀ f ∈ s.firstKill a,
    (∃ t ∈ s.tasks cfg a, t.pid ∈ s.doomed (s.state.shared.unit cfg a)) → c.mono ≤ f + K
  alone : a < s.warden.next → (s.warden.heap a).state = .closing →
    ∀ id ∈ startsScope s.state act, id ≠ (s.warden.heap a).id

instance (cfg : Config) (K a : Nat) (s : Watch) (act : Action) : Decidable (Dying cfg K a s act) :=
  decidable_of_iff (Ticking s act ∧ (∀ x ∈ opens s.state act, x.1 = a → x.2 = true) ∧
      (∀ c ∈ act.tick?, ∀ f ∈ s.firstKill a,
        (∃ t ∈ s.tasks cfg a, t.pid ∈ s.doomed (s.state.shared.unit cfg a)) → c.mono ≤ f + K) ∧
      (a < s.warden.next → (s.warden.heap a).state = .closing →
        ∀ id ∈ startsScope s.state act, id ≠ (s.warden.heap a).id))
    ⟨fun ⟨ht, hw, hm, ha⟩ => ⟨ht, hw, hm, ha⟩, fun ⟨ht, hw, hm, ha⟩ => ⟨ht, hw, hm, ha⟩⟩

-- ---------------------------------------------------------------------------
-- What a step does
-- ---------------------------------------------------------------------------

section
variable {cfg : Config} {s t : State}

theorem linger_other (hrun : ∀ r, act ≠ .run r) (h : linger cfg s act = some (v, k)) :
    step cfg s act = some v ∧ k = none := by
  cases act with
  | run r => exact absurd rfl (hrun r)
  | tick | admitStart | admitStep | attachStart | attach | exit | fork | collect =>
    simp only [linger] at h
    obtain ⟨t, hstep, heq⟩ := Option.map_eq_some_iff.mp h
    cases heq
    exact ⟨hstep, rfl⟩

theorem linger_warden (hu : linger cfg s act = some (v, k)) (h : step cfg s act = some t) :
    v.shared.warden = t.shared.warden ∧ v.loop = t.loop ∧ v.clock = t.clock ∧
      v.attaches = t.attaches := by
  by_cases hrun : ∃ r, act = .run r
  · obtain ⟨r, rfl⟩ := hrun
    simp only [step] at h
    simp only [linger] at hu
    split at h
    · cases h
    · rename_i hnext
      simp only [hnext] at hu
      cases h
      cases hu
      exact ⟨(Shared.kill_warden ..).symm, rfl, rfl, rfl⟩
  · obtain ⟨hstep, -⟩ := linger_other (fun r hr => hrun ⟨r, hr⟩) hu
    cases h.symm.trans hstep
    exact ⟨rfl, rfl, rfl, rfl⟩

theorem linger_step (hu : linger cfg s act = some (v, k)) : ∃ t, step cfg s act = some t := by
  by_cases hrun : ∃ r, act = .run r
  · obtain ⟨r, rfl⟩ := hrun
    cases hnext : loopNext cfg s.clock r s.shared s.lastPoll s.loop with
    | none => simp [linger, hnext] at hu
    | some next =>
      simp only [step, hnext]
      exact ⟨_, rfl⟩
  · exact ⟨v, (linger_other (fun r hr => hrun ⟨r, hr⟩) hu).1⟩

theorem reaping_step {s u : Watch} (h : (reaping cfg).step s act = some u) :
    ∃ t k, step cfg s.state act = some t ∧ linger cfg s.state act = some (u.state, k) ∧
      u = s.after cfg act k u.state := by
  obtain ⟨⟨v, k⟩, hlinger, rfl⟩ := Option.map_eq_some_iff.mp h
  have hstate : (s.after cfg act k v).state = v := by
    show (s.timed.after act _).state = _
    cases act <;> try rfl
    simp only [Timed.after]
    split <;> rfl
  obtain ⟨t, hstep⟩ := linger_step hlinger
  exact ⟨t, k, hstep, by rw [hstate]; exact hlinger, by rw [hstate]⟩

inductive Turns (g g' : Grant) : Prop
  | same : g'.state = g.state → g'.termSent = g.termSent → g'.closingSince = g.closingSince →
      Turns g g'
  | close : g.state = .opened → g'.state = .closing → g'.termSent = false → Turns g g'

theorem Turns.refl (g : Grant) : Turns g g := .same rfl rfl rfl

theorem closeLocked_turns (reason : GoString) (g : Grant) : Turns g (closeLocked reason g) := by
  unfold closeLocked
  split
  · rename_i h
    exact .close h rfl rfl
  · exact .refl g

theorem enforceDeadline_turns (now : Int64) (mono : Int) (g : Grant) :
    Turns g (enforceDeadline now mono g) := by
  unfold enforceDeadline
  split
  · exact closeLocked_turns _ g
  · exact .refl g

theorem pollGrant_turns (c : Clock) (answer : Answer) (g : Grant) :
    Turns g (pollGrant c answer g) := by
  unfold pollGrant
  repeat' split
  all_goals first
    | exact closeLocked_turns _ g
    | exact .same rfl rfl rfl

theorem forEach_turns {w : Warden} {f : Grant → Grant} (h : ∀ g, Turns g (f g)) (a : Nat) :
    Turns (w.heap a) ((w.forEach f).heap a) := by
  rw [heap_forEach]
  split
  · exact h _
  · exact .refl _

theorem write_turns {w : Warden} (h : Turns (w.heap a) g) (b : Nat) :
    Turns (w.heap b) ((w.write a g).heap b) := by
  rw [heap_write]
  split
  · rename_i hb
    rw [hb]
    exact h
  · exact .refl _

/-- Before `advanceClosing` has collected its list. -/
def LoopState.early : LoopState → Bool
  | .enforcing .. | .enforced | .polling _ | .polled .. | .expire | .expiring _ | .prune
  | .collect => true
  | _ => false

variable (cfg) in
inductive PassMove (s : State) (r : Reading) (t : State) : Option Kill → Prop
  | start : s.loop = .idle → t.loop = .enforcing s.clock.wall s.clock.mono →
      t.shared = s.shared → PassMove s r t none
  | early : s.loop.early = true → t.loop.early = true → (∀ now mono, t.loop ≠ .enforcing now mono) →
      (∀ a, Turns (s.shared.warden.heap a) (t.shared.warden.heap a)) →
      t.shared.warden.grants = s.shared.warden.grants →
      t.shared.slices = s.shared.slices → PassMove s r t none
  | collect : s.loop = .collect → t.loop = .closing s.shared.warden.closingAddrs →
      t.shared = s.shared → PassMove s r t none
  | finish : s.loop = .closing [] → t.loop = .idle →
      t.shared = { s.shared with warden := s.shared.warden.forget s.clock.mono } →
        PassMove s r t none
  | begin : s.loop = .closing todo → todo[r.pick]? = some a →
      t.loop = .sent (todo.eraseIdx r.pick) a (s.shared.warden.beginTerm s.clock.mono a).1 →
      t.shared = { s.shared with warden := (s.shared.warden.beginTerm s.clock.mono a).2 } →
      PassMove s r t none
  | absent : s.loop = .sent todo a elapsed →
      (s.shared.slices (s.shared.unit cfg a)).present = false → t.loop = .finalize todo a →
      t.shared = s.shared → PassMove s r t none
  | present : s.loop = .sent todo a elapsed →
      (s.shared.slices (s.shared.unit cfg a)).present = true → t.loop = .signal todo a elapsed →
      t.shared = s.shared → PassMove s r t none
  | signal : s.loop = .signal todo a elapsed → t.loop = .signalled todo a →
      t.shared = s.shared → k = (if elapsed < cfg.termGrace then none else some ⟨a, r.ok⟩) →
      PassMove s r t k
  | unread : s.loop = .signalled todo a → r.ok = false → t.loop = .closing todo →
      t.shared = s.shared → PassMove s r t none
  | empty : s.loop = .signalled todo a → r.ok = true →
      (s.shared.slices (s.shared.unit cfg a)).tasks = [] → t.loop = .finalize todo a →
      t.shared = s.shared → PassMove s r t none
  | populated : s.loop = .signalled todo a → r.ok = true →
      (s.shared.slices (s.shared.unit cfg a)).tasks ≠ [] → t.loop = .list todo a →
      t.shared = s.shared → PassMove s r t none
  | list : s.loop = .list todo a → t.loop = .listed todo a pids → t.shared = s.shared →
      PassMove s r t none
  | listed : s.loop = .listed todo a pids → t.loop = .closing todo →
      t.shared = { s.shared with warden := s.shared.warden.setRemaining a pids } →
        PassMove s r t none
  | stop : s.loop = .finalize todo a → t.loop = .stopped todo a →
      t.shared = { s.shared with slices := s.shared.slices.stop (s.shared.unit cfg a) } →
      PassMove s r t none
  | close : s.loop = .stopped todo a → t.loop = .closing todo →
      t.shared = { s.shared with warden := s.shared.warden.markClosed s.clock.mono a } →
      PassMove s r t none

theorem pruneSessions_turns (w : Warden) (alive : Int → Option UInt64) (a : Nat) :
    Turns (w.heap a) ((w.pruneSessions alive).heap a) := by
  unfold pruneSessions
  refine forEach_turns (fun g => ?_) a
  exact .same rfl rfl rfl

theorem setRemaining_turns (w : Warden) (a : Nat) (pids : List Int) (b : Nat) :
    Turns (w.heap b) ((w.setRemaining a pids).heap b) := by
  unfold setRemaining
  refine write_turns ?_ b
  exact .same rfl rfl rfl

theorem applyPoll_turns (w : Warden) (c : Clock) (id : GoString) (answer : Answer) :
    (∀ a, Turns (w.heap a) ((w.applyPoll c id answer).heap a)) ∧
      (w.applyPoll c id answer).grants = w.grants := by
  unfold applyPoll
  split
  · exact ⟨fun a => .refl _, rfl⟩
  · split
    · exact ⟨write_turns (pollGrant_turns c answer _), rfl⟩
    · exact ⟨fun a => .refl _, rfl⟩

theorem linger_passMove (h : linger cfg s (.run r) = some (t, k)) : PassMove cfg s r t k := by
  simp only [linger] at h
  split at h
  · cases h
  · rename_i hnext
    cases h
    cases hst : s.loop with
    | idle =>
      simp only [hst, loopNext] at hnext
      cases hnext
      exact .start hst rfl rfl
    | enforcing now mono =>
      simp only [hst, loopNext] at hnext
      cases hnext
      exact .early (by rw [hst]; rfl) rfl (by simp) (forEach_turns (enforceDeadline_turns now mono))
        rfl rfl
    | polled todo id answer =>
      simp only [hst, loopNext] at hnext
      cases hnext
      obtain ⟨hturns, hgrants⟩ := applyPoll_turns s.shared.warden s.clock id answer
      exact .early (by rw [hst]; rfl) rfl (by simp) hturns hgrants rfl
    | enforced =>
      simp only [hst, loopNext] at hnext
      split at hnext <;> cases hnext <;>
        exact .early (by rw [hst]; rfl) rfl (by simp) (fun a => .refl _) rfl rfl
    | polling todo =>
      cases todo with
      | nil =>
        simp only [hst, loopNext] at hnext
        cases hnext
        exact .early (by rw [hst]; rfl) rfl (by simp) (fun a => .refl _) rfl rfl
      | cons id ids =>
        simp only [hst, loopNext] at hnext
        split at hnext <;> cases hnext
        exact .early (by rw [hst]; rfl) rfl (by simp) (fun a => .refl _) rfl rfl
    | expire | expiring =>
      simp only [hst, loopNext] at hnext
      cases hnext
      exact .early (by rw [hst]; rfl) rfl (by simp) (fun a => .refl _) rfl rfl
    | prune =>
      simp only [hst, loopNext] at hnext
      cases hnext
      exact .early (by rw [hst]; rfl) rfl (by simp) (pruneSessions_turns _ _) rfl rfl
    | collect =>
      simp only [hst, loopNext] at hnext
      cases hnext
      exact .collect hst rfl rfl
    | closing todo =>
      cases todo with
      | nil =>
        simp only [hst, loopNext] at hnext
        cases hnext
        exact .finish hst rfl rfl
      | cons a as =>
        simp only [hst, loopNext] at hnext
        split at hnext
        · cases hnext
        · rename_i hpick
          cases hnext
          exact .begin hst hpick rfl rfl
    | sent todo a elapsed =>
      simp only [hst, loopNext] at hnext
      split at hnext
      · rename_i hp
        cases hnext
        exact .present hst hp rfl rfl
      · rename_i hp
        cases hnext
        exact .absent hst (by simpa using hp) rfl rfl
    | signal todo a elapsed =>
      simp only [hst, loopNext] at hnext
      split at hnext <;> cases hnext <;> rename_i hgrace
      · exact .signal hst rfl rfl (if_pos hgrace).symm
      · exact .signal hst rfl rfl (if_neg hgrace).symm
    | signalled todo a =>
      simp only [hst, loopNext] at hnext
      split at hnext
      · rename_i hok
        cases hnext
        exact .unread hst (by simpa using hok) rfl rfl
      · rename_i hok
        have hok' : r.ok = true := by simpa using hok
        split at hnext
        · rename_i hempty
          cases hnext
          exact .empty hst hok' hempty rfl rfl
        · rename_i hne
          cases hnext
          exact .populated hst hok' hne rfl rfl
    | list todo a =>
      simp only [hst, loopNext] at hnext
      cases hnext
      exact .list hst rfl rfl
    | listed todo a pids =>
      simp only [hst, loopNext] at hnext
      cases hnext
      exact .listed hst rfl rfl
    | finalize todo a =>
      simp only [hst, loopNext] at hnext
      cases hnext
      exact .stop hst rfl rfl
    | stopped todo a =>
      simp only [hst, loopNext] at hnext
      cases hnext
      exact .close hst rfl rfl

theorem Section.run_next (h : Section cfg s (.run r) w) : w.next = s.shared.warden.next := by
  cases h with
  | poll =>
    unfold applyPoll
    split
    · rfl
    · split <;> rfl
  | none | enforce | expire | prune | term | remaining | close | forget => rfl

theorem step_record (h : step cfg s act = some t) (hrun : ∀ r, act ≠ .run r)
    (ha : a < s.shared.warden.next) :
    (t.shared.warden.heap a).state = (s.shared.warden.heap a).state ∧
    (t.shared.warden.heap a).termSent = (s.shared.warden.heap a).termSent ∧
    (t.shared.warden.heap a).closingSince = (s.shared.warden.heap a).closingSince := by
  have hsec := step_section cfg h
  generalize t.shared.warden = w at hsec ⊢
  cases hsec with
  | none | take => exact ⟨rfl, rfl, rfl⟩
  | record hst hw =>
    obtain ⟨-, rfl⟩ := recordPending_eq_ok hw
    exact ⟨rfl, rfl, rfl⟩
  | track hst hw =>
    obtain ⟨haddr, hopen, rfl⟩ | ⟨-, -, rfl⟩ := track_eq_ok hw
    · simp only [heap_write, setDeadline]
      split
      · rename_i hb
        rw [hb]
        exact ⟨rfl, rfl, rfl⟩
      · exact ⟨rfl, rfl, rfl⟩
    · simp only [Function.update_apply, Nat.ne_of_lt ha, if_false, and_self]
  | attach hst hw =>
    obtain ⟨hopen, rfl⟩ := attachSession_eq_ok hw
    simp only [heap_write]
    split
    · rename_i hb
      rw [hb]
      exact ⟨rfl, rfl, rfl⟩
    · exact ⟨rfl, rfl, rfl⟩
  | enforce | poll | expire | prune | term | remaining | close | forget =>
    exact absurd rfl (hrun _)

theorem Inv.of_eq (h : Inv t) (hw : s.shared.warden = t.shared.warden) (hl : s.loop = t.loop)
    (ha : s.attaches = t.attaches) : Inv s := by
  refine ⟨hw ▸ h.objects, ?_, ?_, hl ▸ h.distinct⟩
  · rw [hw, ha]
    exact h.pointers
  · rw [hw, hl]
    exact h.terminating

theorem Advance.of_eq (h : Advance s act t) (hl : u.loop = t.loop) (hc : u.clock = t.clock) :
    Advance s act u := by
  cases h with
  | tick hclock hloop => exact .tick (hc.trans hclock) (hl.trans hloop)
  | start hst hst' hclock => exact .start hst (hl.trans hst') (hc.trans hclock)
  | enforce hst hst' hclock => exact .enforce hst (hl.trans hst') (hc.trans hclock)
  | run hidle hne hne' hclock => exact .run hidle hne (hl ▸ hne') (hc.trans hclock)
  | other ht hr hloop hclock => exact .other ht hr (hl.trans hloop) (hc.trans hclock)

end

@[simp] theorem Timed.after_state (s : Timed) (act : Action) (t : State) :
    (s.after act t).state = t := by
  cases act with
  | run r =>
    simp only [Timed.after]
    split <;> rfl
  | tick | admitStart | admitStep | attachStart | attach | exit | fork | collect => rfl

@[simp] theorem Watch.after_state (cfg : Config) (s : Watch) (act : Action) (k : Option Kill)
    (t : State) :
    (s.after cfg act k t).state = t := Timed.after_state s.timed act t

theorem Watch.after_now (cfg : Config) (s : Watch) (act : Action) (k : Option Kill) (t : State) :
    (s.after cfg act k t).now = t.clock.mono :=
  congrArg (·.clock.mono) (Watch.after_state cfg s act k t)

section
variable {cfg : Config} {s u : Watch} {v : State}

theorem reaping_inv (hs : (reaping cfg).Reachable ok s) : Inv s.state := by
  refine hs.invariant (I := fun s => Inv s.state) ?_ ?_
  · intro s hinit
    exact .initial hinit.1
  · intro s act u hI _ hstep
    obtain ⟨t, k, hbase, hu, -⟩ := reaping_step hstep
    obtain ⟨hw, hl, -, ha⟩ := linger_warden hu hbase
    exact (hI.step hbase).of_eq hw hl ha

theorem reaping_advance (h : (reaping cfg).step s act = some u) :
    Advance s.state act u.state ∧ u.timed = s.timed.after act u.state := by
  obtain ⟨t, k, hbase, hu, heq⟩ := reaping_step h
  obtain ⟨-, hl, hc, -⟩ := linger_warden hu hbase
  refine ⟨(step_advance hbase).of_eq hl hc, ?_⟩
  exact congrArg Watch.timed heq

theorem Ticking.tempo (hs : (reaping cfg).Reachable Ticking s) : Tempo 0 s.timed := by
  refine hs.invariant (I := fun s => Tempo 0 s.timed) ?_ ?_
  · rintro s ⟨hinit, -, hfresh, -⟩
    exact .fresh hfresh hinit.loop (le_refl 0)
  · intro s act u hT hok hstep
    obtain ⟨hadv, ht⟩ := reaping_advance hstep
    rw [ht]
    exact hT.after hadv hok.1 hok.2 (le_refl 0)

theorem Ticking.still (h : Ticking s (.tick c)) (hT : Tempo 0 s.timed)
    (hne : s.state.loop ≠ .idle) : c = s.state.clock := by
  obtain ⟨⟨hback, hlimit, -, hsame⟩, hbrisk⟩ := h
  refine hsame (le_antisymm ?_ hback)
  cases ht : s.state.loop.timeout with
  | none =>
    rw [Timed.limit_now hne ht] at hlimit
    exact hlimit
  | some d =>
    have hspent := hbrisk (by rw [ht]; rfl)
    have hnonneg := hT.nonneg
    omega

end

-- ---------------------------------------------------------------------------
-- The record is right
-- ---------------------------------------------------------------------------

def Grant.firstPass (g : Grant) : Option Int :=
  if g.state = .closing ∧ g.termSent = true then some g.closingSince else none

/-- `cgroup.kill` was written just if the grace period was over. -/
def Pass.Timely (cfg : Config) (first : Int) (p : Pass) : Prop :=
  p.killed = true ↔ first + cfg.termGrace ≤ p.now

def Stage (cfg : Config) (first : Int) (p : Pass) : LoopState → Prop
  | .sent _ _ elapsed => elapsed = p.now - first
  | .signal _ _ elapsed => elapsed = p.now - first ∧ p.present = true
  | .signalled .. | .list .. | .listed .. => p.present = true ∧ p.Timely cfg first
  | .finalize .. | .stopped .. =>
    p.present = false ∨ p.present = true ∧ p.Timely cfg first ∧ p.populated = some false
  | _ => True

structure Pass.Honest (cfg : Config) (firstPass : Nat → Option Int) (p : Pass) : Prop where
  closed : p.closed = true → p.present = false ∨ p.populated = some false
  killed : p.present = true → ∃ first, firstPass p.addr = some first ∧ p.Timely cfg first

structure Filed (cfg : Config) (s : Watch) : Prop where
  waiting : s.state.loop.passing = none → s.current = none
  current : ∀ a, s.state.loop.passing = some a → ∃ p first, s.current = some p ∧ p.addr = a ∧
    p.now = s.now ∧ p.closed = false ∧ s.firstPass a = some first ∧ Stage cfg first p s.state.loop
  passes : ∀ p ∈ s.passes, p.Honest cfg s.firstPass
  first : ∀ a < s.warden.next, (s.warden.heap a).state ≠ .closed →
    s.firstPass a = (s.warden.heap a).firstPass
  unseen : ∀ a, s.warden.next ≤ a → s.firstPass a = none

theorem Turns.firstPass (h : Turns g g') : g'.firstPass = g.firstPass := by
  cases h with
  | same hs ht hc => simp only [Grant.firstPass, hs, ht, hc]
  | close hs hs' ht => simp [Grant.firstPass, hs, hs', ht]

theorem Turns.closed (h : Turns g g') : g'.state = .closed ↔ g.state = .closed := by
  cases h with
  | same hs => rw [hs]
  | close hs hs' => simp [hs, hs']

section
variable {cfg : Config} {s u : Watch} {v : State}

theorem Watch.after_other (cfg : Config) (hrun : ∀ r, act ≠ .run r) (s : Watch) (v : State) :
    (s.after cfg act none v).firstPass = s.firstPass ∧ (s.after cfg act none v).firstKill =
      s.firstKill ∧
    (s.after cfg act none v).current = (if v.loop.passing.isSome then s.current else none) ∧
    (s.after cfg act none v).passes =
      (if v.loop.passing.isSome then s.passes else s.passes ++ s.current.toList) := by
  cases act with
  | run r => exact absurd rfl (hrun r)
  | tick | admitStart | admitStep | attachStart | attach | exit | fork | collect =>
    exact ⟨rfl, rfl, rfl, rfl⟩

theorem Watch.after_passing (cfg : Config) (h : v.loop.passing = some a) (s : Watch) (r : Reading)
    (k : Option Kill) :
    (s.after cfg (.run r) k v).current = s.note cfg r k ∧
      (s.after cfg (.run r) k v).passes = s.passes := by
  simp only [Watch.after, h, Option.isSome_some, if_true, and_self]

theorem Watch.after_waiting (cfg : Config) (h : v.loop.passing = none) (s : Watch) (r : Reading)
    (k : Option Kill) :
    (s.after cfg (.run r) k v).current = none ∧
      (s.after cfg (.run r) k v).passes = s.passes ++ (s.note cfg r k).toList := by
  simp only [Watch.after, h, Option.isSome_none, Bool.false_eq_true, if_false, and_self]

theorem Watch.after_firstPass (h : ∀ todo, s.state.loop ≠ .closing todo) (r : Reading)
    (v : State) : (s.after cfg (.run r) k v).firstPass = s.firstPass := by
  simp only [Watch.after]
  split
  · rename_i hst
    exact absurd hst (h _)
  · rfl

theorem Filed.objects (h : Filed cfg s) (hnext : v.shared.warden.next = s.warden.next)
    (hturns : ∀ b, Turns (s.warden.heap b) (v.shared.warden.heap b) ∨
      (v.shared.warden.heap b).state = .closed) :
    (∀ b < v.shared.warden.next, (v.shared.warden.heap b).state ≠ .closed →
      s.firstPass b = (v.shared.warden.heap b).firstPass) ∧
    ∀ b, v.shared.warden.next ≤ b → s.firstPass b = none := by
  rw [hnext]
  refine ⟨fun b hb hlive => ?_, h.unseen⟩
  rcases hturns b with ht | hc
  · rw [ht.firstPass]
    exact h.first b hb (ht.closed.not.mp hlive)
  · exact absurd hc hlive

theorem Filed.quiet (h : Filed cfg s) (hn : s.note cfg r k = none) (hv : v.loop.passing = none)
    (hf : (s.after cfg (.run r) k v).firstPass = s.firstPass)
    (hnext : v.shared.warden.next = s.warden.next)
    (hturns : ∀ b, Turns (s.warden.heap b) (v.shared.warden.heap b)) :
    Filed cfg (s.after cfg (.run r) k v) := by
  obtain ⟨hcur, hps⟩ := Watch.after_waiting cfg hv s r k
  obtain ⟨hfirst, hunseen⟩ := h.objects hnext fun b => .inl (hturns b)
  refine ⟨fun _ => hcur, ?_, ?_, ?_, ?_⟩
  · intro a ha
    rw [Watch.after_state, hv] at ha
    cases ha
  · rw [hps, hn, hf, Option.toList_none, List.append_nil]
    exact h.passes
  · rw [hf, Watch.warden, Watch.after_state]
    exact hfirst
  · rw [hf, Watch.warden, Watch.after_state]
    exact hunseen

theorem Filed.onward (h : Filed cfg s) (hs : s.state.loop.passing = some a)
    (hv : v.loop.passing = some a) (hclock : v.clock = s.state.clock)
    (hf : (s.after cfg (.run r) k v).firstPass = s.firstPass)
    (hw : v.shared.warden = s.warden)
    (hstage : ∀ p first, s.current = some p → Stage cfg first p s.state.loop →
      ∃ p', s.note cfg r k = some p' ∧ p'.addr = p.addr ∧ p'.now = p.now ∧ p'.closed = p.closed ∧
        Stage cfg first p' v.loop) :
    Filed cfg (s.after cfg (.run r) k v) := by
  obtain ⟨hcur, hps⟩ := Watch.after_passing cfg hv s r k
  obtain ⟨p, first, hp, haddr, hnow, hopen, hfirst, hst⟩ := h.current a hs
  obtain ⟨p', hp', haddr', hnow', hopen', hst'⟩ := hstage p first hp hst
  refine ⟨?_, ?_, ?_, ?_, ?_⟩
  · intro hnone
    rw [Watch.after_state, hv] at hnone
    cases hnone
  · intro b hb
    rw [Watch.after_state, hv] at hb
    cases hb
    refine ⟨p', first, hcur.trans hp', haddr'.trans haddr, ?_, hopen'.trans hopen,
      by rw [hf]; exact hfirst, by rw [Watch.after_state]; exact hst'⟩
    rw [hnow', hnow, Watch.after_now, hclock]
    rfl
  · rw [hps, hf]
    exact h.passes
  · rw [hf, Watch.warden, Watch.after_state, hw]
    exact h.first
  · rw [hf, Watch.warden, Watch.after_state, hw]
    exact h.unseen

theorem Filed.over (h : Filed cfg s) (hs : s.state.loop.passing = some a)
    (hv : v.loop.passing = none)
    (hf : (s.after cfg (.run r) k v).firstPass = s.firstPass)
    (hnext : v.shared.warden.next = s.warden.next)
    (hturns : ∀ b, Turns (s.warden.heap b) (v.shared.warden.heap b) ∨
      (v.shared.warden.heap b).state = .closed)
    (hhonest : ∀ p first, s.current = some p → s.firstPass p.addr = some first →
      p.closed = false → Stage cfg first p s.state.loop →
      ∃ p', s.note cfg r k = some p' ∧ p'.Honest cfg s.firstPass) :
    Filed cfg (s.after cfg (.run r) k v) := by
  obtain ⟨hcur, hps⟩ := Watch.after_waiting cfg hv s r k
  obtain ⟨hfirst, hunseen⟩ := h.objects hnext hturns
  obtain ⟨p, first, hp, rfl, -, hopen, hfp, hst⟩ := h.current a hs
  obtain ⟨p', hp', hp''⟩ := hhonest p first hp hfp hopen hst
  refine ⟨fun _ => hcur, ?_, ?_, ?_, ?_⟩
  · intro a ha
    rw [Watch.after_state, hv] at ha
    cases ha
  · rw [hps, hp', hf]
    intro q hq
    rcases List.mem_append.mp hq with hq | hq
    · exact h.passes q hq
    · cases List.mem_singleton.mp hq
      exact hp''
  · rw [hf, Watch.warden, Watch.after_state]
    exact hfirst
  · rw [hf, Watch.warden, Watch.after_state]
    exact hunseen

theorem beginTerm_eq {w : Warden} (now : Int) (hc : (w.heap a).state = .closing) :
    (w.beginTerm now a).1 = now - (w.heap a).firstPass.getD now ∧
    (w.beginTerm now a).2 = w.write a { w.heap a with
      termSent := true, closingSince := (w.heap a).firstPass.getD now } := by
  simp only [beginTerm]
  generalize w.heap a = g at hc ⊢
  obtain ⟨id, deadline, state, reason, sessions, remaining, deadlineMono, termSent, since⟩ := g
  cases hc
  cases termSent <;> simp [Grant.firstPass]

theorem beginTerm_state (w : Warden) (now : Int) (b : Nat) :
    ((w.beginTerm now b).2.heap a).state = (w.heap a).state := by
  simp only [beginTerm, heap_write]
  split
  · rename_i hab
    rw [hab]
    split <;> rfl
  · rfl

theorem Filed.begin (h : Filed cfg s) (hst : s.state.loop = .closing todo)
    (hpick : todo[r.pick]? = some a) (ha : a < s.warden.next)
    (hclosing : (s.warden.heap a).state = .closing)
    (hv : v.loop = .sent (todo.eraseIdx r.pick) a (s.warden.beginTerm s.now a).1)
    (hw : v.shared.warden = (s.warden.beginTerm s.now a).2) (hclock : v.clock = s.state.clock) :
    Filed cfg (s.after cfg (.run r) k v) := by
  have hpass : v.loop.passing = some a := by rw [hv]; rfl
  obtain ⟨hcur, hps⟩ := Watch.after_passing cfg hpass s r k
  have hnote : s.note cfg r k = some ⟨a, s.now, false, false, none, false⟩ := by
    simp only [Watch.note, hst, hpick, Option.map_some]
  have hold := h.first a ha (by rw [hclosing]; simp)
  obtain ⟨helapsed, hwrite⟩ := beginTerm_eq s.now hclosing
  rw [← hold] at helapsed hwrite
  rw [hwrite] at hw
  generalize hfirst : (s.firstPass a).getD s.now = first at helapsed hw
  have hfp : (s.after cfg (.run r) k v).firstPass = Function.update s.firstPass a (some first) := by
    simp only [Watch.after, hst, hpick, hfirst]
  have hkeep {b : Nat} {f : Int} (hb : s.firstPass b = some f) :
      Function.update s.firstPass a (some first) b = some f := by
    by_cases hba : b = a
    · subst hba
      rw [hb, Option.getD_some] at hfirst
      rw [Function.update_self, hfirst]
    · rw [Function.update_of_ne hba, hb]
  refine ⟨?_, ?_, ?_, ?_, ?_⟩
  · intro hnone
    rw [Watch.after_state, hpass] at hnone
    cases hnone
  · intro b hb
    rw [Watch.after_state, hpass] at hb
    cases hb
    refine ⟨_, first, hcur.trans hnote, rfl, ?_, rfl, by rw [hfp, Function.update_self], ?_⟩
    · rw [Watch.after_now, hclock]
      rfl
    · rw [Watch.after_state, hv]
      exact helapsed
  · rw [hps, hfp]
    intro p hp
    obtain ⟨hc, hk⟩ := h.passes p hp
    refine ⟨hc, fun hpresent => ?_⟩
    obtain ⟨f, hf, htimely⟩ := hk hpresent
    exact ⟨f, hkeep hf, htimely⟩
  · intro b hb hlive
    rw [Watch.warden, Watch.after_state, hw] at hb hlive ⊢
    rw [hfp]
    rw [heap_write] at hlive ⊢
    by_cases hba : b = a
    · subst hba
      simp [Grant.firstPass, hclosing]
    · rw [if_neg hba] at hlive ⊢
      rw [Function.update_of_ne hba]
      exact h.first b hb hlive
  · intro b hb
    rw [Watch.warden, Watch.after_state, hw] at hb
    have hba : b ≠ a := by
      rintro rfl
      exact absurd ha (Nat.not_lt.mpr hb)
    rw [hfp, Function.update_of_ne hba]
    exact h.unseen b hb

theorem Filed.run (h : Filed cfg s) (hI : Inv s.state) (hm : PassMove cfg s.state r v k)
    (hclock : v.clock = s.state.clock) (hnext : v.shared.warden.next = s.warden.next) :
    Filed cfg (s.after cfg (.run r) k v) := by
  cases hm with
  | start hst hst' hsh | collect hst hst' hsh =>
    refine h.quiet ?_ (by rw [hst']; rfl) (Watch.after_firstPass (by rw [hst]; simp) r v) hnext
      fun b => by rw [hsh]; exact .refl _
    simp only [Watch.note, hst]
    exact h.waiting (by rw [hst]; rfl)
  | early hst hst' hne hturns _ _ =>
    have hpass {st : LoopState} (he : st.early = true) : st.passing = none := by
      cases st <;> first | rfl | cases he
    have hloop : ∀ todo, s.state.loop ≠ .closing todo := fun todo heq => by
      rw [heq] at hst
      cases hst
    refine h.quiet ?_ (hpass hst') (Watch.after_firstPass hloop r v) hnext hturns
    have hcur := h.waiting (hpass hst)
    simp only [Watch.note]
    split <;> rename_i heq <;> first | exact hcur | (rw [heq] at hst; cases hst)
  | finish hst hst' hsh =>
    refine h.quiet ?_ (by rw [hst']; rfl) ?_ hnext fun b => by rw [hsh]; exact .refl _
    · simp only [Watch.note, hst, List.getElem?_nil, Option.map_none]
    · simp only [Watch.after, hst, List.getElem?_nil]
  | @begin todo a hst hpick hst' hsh =>
    have hmem : a ∈ s.state.loop.addrs := by
      rw [hst]
      exact List.mem_of_getElem? hpick
    obtain ⟨hlt, hclosing⟩ := hI.terminating a hmem
    exact h.begin hst hpick hlt hclosing hst' (by rw [hsh]; rfl) hclock
  | absent hst hp hst' hsh =>
    refine h.onward (by rw [hst]; rfl) (by rw [hst']; rfl) hclock
      (Watch.after_firstPass (by rw [hst]; simp) r v) (by rw [hsh]) fun p first hcur hstage => ?_
    refine ⟨{ p with present := false }, ?_, rfl, rfl, rfl, ?_⟩
    · simp only [Watch.note, hst, hcur, Option.map_some, hp]
    · rw [hst']
      exact .inl rfl
  | present hst hp hst' hsh =>
    refine h.onward (by rw [hst]; rfl) (by rw [hst']; rfl) hclock
      (Watch.after_firstPass (by rw [hst]; simp) r v) (by rw [hsh]) fun p first hcur hstage => ?_
    refine ⟨{ p with present := true }, ?_, rfl, rfl, rfl, ?_⟩
    · simp only [Watch.note, hst, hcur, Option.map_some, hp]
    · rw [hst] at hstage
      rw [hst']
      exact ⟨hstage, rfl⟩
  | @signal todo a elapsed _ hst hst' hsh hk =>
    refine h.onward (by rw [hst]; rfl) (by rw [hst']; rfl) hclock
      (Watch.after_firstPass (by rw [hst]; simp) r v) (by rw [hsh]) fun p first hcur hstage => ?_
    refine ⟨{ p with killed := k.isSome }, ?_, rfl, rfl, rfl, ?_⟩
    · simp only [Watch.note, hst, hcur, Option.map_some]
    · rw [hst] at hstage
      rw [hst']
      obtain ⟨helapsed, hpresent⟩ := hstage
      refine ⟨hpresent, ?_⟩
      rw [Pass.Timely, hk]
      split
      · simp only [Option.isSome_none, Bool.false_eq_true, false_iff]
        omega
      · simp only [Option.isSome_some, true_iff]
        omega
  | unread hst hok hst' hsh =>
    refine h.over (by rw [hst]; rfl) (by rw [hst']; rfl)
      (Watch.after_firstPass (by rw [hst]; simp) r v) hnext
      (fun b => .inl (by rw [hsh]; exact .refl _)) fun p first hcur hfp hopen hstage => ?_
    rw [hst] at hstage
    refine ⟨{ p with populated := none }, ?_, fun hc => ?_, fun _ => ⟨first, hfp, hstage.2⟩⟩
    · simp [Watch.note, hst, hcur, hok]
    · exact absurd hc (by simp [hopen])
  | @empty todo a hst hok htasks hst' hsh =>
    refine h.onward (by rw [hst]; rfl) (by rw [hst']; rfl) hclock
      (Watch.after_firstPass (by rw [hst]; simp) r v) (by rw [hsh]) fun p first hcur hstage => ?_
    refine ⟨{ p with populated := some false }, ?_, rfl, rfl, rfl, ?_⟩
    · simp [Watch.note, hst, hcur, hok, Watch.tasks, htasks]
    · rw [hst] at hstage
      rw [hst']
      exact .inr ⟨hstage.1, hstage.2, rfl⟩
  | @populated todo a hst hok htasks hst' hsh =>
    refine h.onward (by rw [hst]; rfl) (by rw [hst']; rfl) hclock
      (Watch.after_firstPass (by rw [hst]; simp) r v) (by rw [hsh]) fun p first hcur hstage => ?_
    refine ⟨{ p with populated := some true }, ?_, rfl, rfl, rfl, ?_⟩
    · simp [Watch.note, hst, hcur, hok, Watch.tasks, htasks]
    · rw [hst] at hstage
      rw [hst']
      exact hstage
  | list hst hst' hsh | stop hst hst' hsh =>
    refine h.onward (by rw [hst]; rfl) (by rw [hst']; rfl) hclock
      (Watch.after_firstPass (by rw [hst]; simp) r v) (by rw [hsh]) fun p first hcur hstage => ?_
    refine ⟨p, by simp only [Watch.note, hst, hcur], rfl, rfl, rfl, ?_⟩
    rw [hst] at hstage
    rw [hst']
    exact hstage
  | listed hst hst' hsh =>
    refine h.over (by rw [hst]; rfl) (by rw [hst']; rfl)
      (Watch.after_firstPass (by rw [hst]; simp) r v) hnext (fun b => .inl ?_)
      fun p first hcur hfp hopen hstage => ?_
    · rw [hsh]
      exact setRemaining_turns _ _ _ b
    · rw [hst] at hstage
      refine ⟨p, by simp only [Watch.note, hst, hcur], fun hc => ?_,
        fun _ => ⟨first, hfp, hstage.2⟩⟩
      exact absurd hc (by simp [hopen])
  | @close todo a hst hst' hsh =>
    refine h.over (by rw [hst]; rfl) (by rw [hst']; rfl)
      (Watch.after_firstPass (by rw [hst]; simp) r v) hnext (fun b => ?_)
      fun p first hcur hfp hopen hstage => ?_
    · rw [hsh]
      simp only [markClosed, heap_write]
      split
      · exact .inr rfl
      · exact .inl (.refl _)
    · rw [hst] at hstage
      refine ⟨{ p with closed := true }, by simp only [Watch.note, hst, hcur, Option.map_some], ?_⟩
      rcases hstage with habsent | ⟨-, htimely, hempty⟩
      · exact ⟨fun _ => .inl habsent, fun hp => absurd hp (by simp [habsent])⟩
      · exact ⟨fun _ => .inr hempty, fun _ => ⟨first, hfp, htimely⟩⟩

theorem Filed.other (h : Filed cfg s) (hrun : ∀ r, act ≠ .run r) (hloop : v.loop = s.state.loop)
    (hclock : s.state.loop.passing.isSome → v.clock = s.state.clock)
    (hobjects : ∀ a < v.shared.warden.next, a < s.warden.next ∧
      Turns (s.warden.heap a) (v.shared.warden.heap a) ∨
      s.warden.next ≤ a ∧ (v.shared.warden.heap a).firstPass = none)
    (hnext : s.warden.next ≤ v.shared.warden.next) : Filed cfg (s.after cfg act none v) := by
  obtain ⟨hfp, -, hcur, hps⟩ := Watch.after_other cfg hrun s v
  rw [hloop] at hcur hps
  have hsame : (s.after cfg act none v).current = s.current ∧
      (s.after cfg act none v).passes = s.passes := by
    cases hp : s.state.loop.passing with
    | some a => simp only [hcur, hps, hp, Option.isSome_some, if_true, and_self]
    | none => simp [hcur, hps, hp, h.waiting hp]
  refine ⟨?_, ?_, ?_, ?_, ?_⟩
  · intro hp
    rw [Watch.after_state, hloop] at hp
    exact hsame.1.trans (h.waiting hp)
  · intro a ha
    rw [Watch.after_state, hloop] at ha
    obtain ⟨p, first, hp, haddr, hnow, hopen, hfirst, hstage⟩ := h.current a ha
    refine ⟨p, first, hsame.1.trans hp, haddr, ?_, hopen, by rw [hfp]; exact hfirst, ?_⟩
    · rw [Watch.after_now, hclock (by rw [ha]; rfl)]
      exact hnow
    · rw [Watch.after_state, hloop]
      exact hstage
  · rw [hsame.2, hfp]
    exact h.passes
  · intro a ha hlive
    rw [Watch.warden, Watch.after_state] at ha hlive ⊢
    rw [hfp]
    rcases hobjects a ha with ⟨hlt, ht⟩ | ⟨hge, hnone⟩
    · rw [ht.firstPass]
      exact h.first a hlt (ht.closed.not.mp hlive)
    · rw [hnone]
      exact h.unseen a hge
  · intro a ha
    rw [Watch.warden, Watch.after_state] at ha
    rw [hfp]
    exact h.unseen a (hnext.trans ha)

theorem Filed.step (h : Filed cfg s) (hI : Inv s.state) (hT : Tempo 0 s.timed)
    (hok : Ticking s act) (hstep : (reaping cfg).step s act = some u) : Filed cfg u := by
  obtain ⟨t, k, hbase, hu, heq⟩ := reaping_step hstep
  obtain ⟨hw, hl, hc, -⟩ := linger_warden hu hbase
  have hsec := step_section cfg hbase
  rw [heq]
  rcases step_loop hbase with ⟨hloop, hrun⟩ | ⟨r, _, _, rfl, -, -⟩
  · obtain ⟨-, rfl⟩ := linger_other hrun hu
    refine h.other hrun (by rw [hl, hloop]) (fun hp => ?_) (fun a ha => ?_) ?_
    · rw [hc]
      rcases step_clock hbase with ⟨hclock, -⟩ | rfl
      · exact hclock
      · refine hok.still hT fun hidle => ?_
        rw [hidle] at hp
        cases hp
    · rw [hw] at ha ⊢
      by_cases hlt : a < s.warden.next
      · obtain ⟨hstate, hsent, hsince⟩ := step_record hbase hrun hlt
        exact .inl ⟨hlt, .same hstate hsent hsince⟩
      · obtain ⟨-, _, _, _, _, hheap⟩ := (hsec.map.lt_cases ha).resolve_left hlt
        refine .inr ⟨Nat.le_of_not_lt hlt, ?_⟩
        rw [hheap]
        rfl
    · rw [hw]
      exact hsec.map.next_le
  · have hclock : t.clock = s.state.clock := by
      rcases step_clock hbase with ⟨hclock, -⟩ | hr
      · exact hclock
      · cases hr
    refine h.run hI (linger_passMove hu) (by rw [hc, hclock]) ?_
    rw [hw]
    exact hsec.run_next

theorem Filed.reachable (hs : (reaping cfg).Reachable Ticking s) : Filed cfg s := by
  refine hs.induction (I := fun s => Filed cfg s) ?_ ?_
  · rintro s ⟨hinit, hsent, -, hfp, -, hcur, hps⟩
    refine ⟨fun _ => hcur, ?_, ?_, ?_, ?_⟩
    · intro a ha
      rw [hinit.loop] at ha
      cases ha
    · rw [hps]
      simp
    · intro a ha _
      rw [hfp, Grant.firstPass, if_neg]
      rintro ⟨hclosing, htrue⟩
      rw [hsent a ha hclosing] at htrue
      cases htrue
    · intro a _
      rw [hfp]
  · intro s act u hreach hF hok hstep
    exact hF.step (reaping_inv hreach) (Ticking.tempo hreach) hok hstep

end

end Grantd.Warden
