import Grantd.Warden.Passes

/-!
# How long termination takes

From the first pass to the first `cgroup.kill` it is the grace period and a
tick; from then on every task is doomed, and the pass after the last of them
has exited closes the grant.
-/

namespace Grantd.Warden

open Base

-- ---------------------------------------------------------------------------
-- Doomed tasks
-- ---------------------------------------------------------------------------

section
variable {cfg : Config} {s u : Watch} {v : State}

/-- A slice whose tasks are all doomed gets no other ones, as long as no scope
is started in it. -/
structure Dwindles (tasks tasks' : List Task) (doomed doomed' : List Int) : Prop where
  nonempty : tasks' ≠ [] → tasks ≠ []
  marked : (∀ t ∈ tasks, t.pid ∈ doomed) → ∀ t ∈ tasks', t.pid ∈ doomed'

theorem Dwindles.refl (tasks : List Task) (doomed : List Int) :
    Dwindles tasks tasks doomed doomed := ⟨id, id⟩

theorem Dwindles.filter (tasks : List Task) (doomed : List Int) (p : Task → Bool) :
    Dwindles tasks (tasks.filter p) doomed doomed :=
  ⟨filter_ne_nil tasks p, fun h t ht => h t (List.mem_filter.mp ht).1⟩

theorem attach_dwindles (h : step cfg s.state (.attach i r) = some v)
    (hscope : ∀ id ∈ startsScope s.state (.attach i r), unit ≠ sliceUnit cfg id) :
    Dwindles (s.state.shared.slices unit).tasks (v.shared.slices unit).tasks
      (s.doomed unit) (s.doom cfg none (.attach i r) unit) := by
  simp only [step] at h
  split at h
  · cases h
  · rename_i st m es hnext
    cases h
    cases hst : s.state.attaches i with
    | sliced j =>
      simp only [hst, attachNext] at hnext
      have hslices : m.slices = if r.placed then s.state.shared.slices.place (j.unit cfg)
          ⟨j.job.sshd.pid, j.scope cfg⟩ else s.state.shared.slices := by
        split at hnext <;> cases hnext <;> rfl
      simp only [hslices, Watch.doom, hst]
      split
      · rename_i hplaced
        have hne : unit ≠ j.unit cfg := hscope _ (by simp [startsScope, hst, hplaced])
        simp only [Slices.place, Function.update_of_ne hne]
        exact .refl _ _
      · exact .refl _ _
    | lost j =>
      simp only [hst, attachNext] at hnext
      cases hnext
      simp only [Watch.doom, hst, Slices.stopScope, tasksOf_tasks]
      split
      · rename_i hu
        rw [hu]
        exact .filter _ _ _
      · exact .refl _ _
    | tracked j =>
      simp only [hst, attachNext] at hnext
      simp only [Watch.doom, hst]
      split at hnext <;> cases hnext
      · simp only [start_tasks]
        exact .refl _ _
      · exact .refl _ _
    | idle | attached | refused => simp [hst, attachNext] at hnext
    | parent | valid =>
      simp only [hst, attachNext] at hnext
      cases hnext
      simp only [Watch.doom, hst]
      exact .refl _ _
    | called | taken | answered | checked | timed | sliceFailed | placed =>
      simp only [hst, attachNext] at hnext
      simp only [Watch.doom, hst]
      split at hnext <;> cases hnext <;> exact .refl _ _
    | readBack j tries =>
      simp only [hst, attachNext] at hnext
      simp only [Watch.doom, hst]
      split at hnext
      · cases hnext
        exact .refl _ _
      · split at hnext
        · cases hnext
          exact .refl _ _
        · split at hnext <;> cases hnext <;> exact .refl _ _

theorem fork_dwindles (h : step cfg s.state (.fork unit' parent child) = some v) :
    Dwindles (s.state.shared.slices unit).tasks (v.shared.slices unit).tasks
      (s.doomed unit) (s.doom cfg none (.fork unit' parent child) unit) := by
  simp only [step] at h
  split at h
  · cases h
  · rename_i task hfind
    cases h
    simp only [Watch.doom, Slices.place]
    by_cases hu : unit = unit'
    · subst hu
      have hmem := List.mem_of_find?_eq_some hfind
      have hpid : task.pid = parent := by simpa using List.find?_some hfind
      rw [Function.update_self, Function.update_self]
      refine ⟨fun _ => List.ne_nil_of_mem hmem, fun hall t ht => ?_⟩
      rw [if_pos (hpid ▸ hall task hmem)]
      rcases List.mem_cons.mp ht with rfl | ht
      · exact List.mem_cons_self
      · exact List.mem_cons_of_mem _ (hall t ht)
    · rw [Function.update_of_ne hu, Function.update_of_ne hu]
      exact .refl _ _

theorem other_dwindles (h : step cfg s.state act = some v) (hrun : ∀ r, act ≠ .run r)
    (hscope : ∀ id ∈ startsScope s.state act, unit ≠ sliceUnit cfg id) :
    Dwindles (s.state.shared.slices unit).tasks (v.shared.slices unit).tasks
      (s.doomed unit) (s.doom cfg none act unit) := by
  cases act with
  | run r => exact absurd rfl (hrun r)
  | attach i r => exact attach_dwindles h hscope
  | fork unit' parent child => exact fork_dwindles h
  | tick c =>
    cases h
    exact .refl _ _
  | admitStart n c | attachStart i c =>
    simp only [step] at h
    split at h <;> cases h
    exact .refl _ _
  | admitStep n r =>
    simp only [step] at h
    split at h
    · cases h
    · rename_i hnext
      cases h
      simp only [admitNext_slices hnext]
      exact .refl _ _
  | exit unit' pid =>
    cases h
    simp only [tasksOf_tasks, Watch.doom]
    by_cases hu : unit = unit'
    · subst hu
      rw [if_pos rfl, Function.update_self]
      refine ⟨filter_ne_nil _ _, fun hall t ht => ?_⟩
      obtain ⟨hmem, hne⟩ := List.mem_filter.mp ht
      exact List.mem_filter.mpr ⟨hall t hmem, hne⟩
    · rw [if_neg hu, Function.update_of_ne hu]
      exact .refl _ _
  | collect unit' =>
    simp only [step] at h
    split at h <;> cases h
    simp only [stop_tasks, Watch.doom]
    split
    · exact ⟨fun hne => absurd rfl hne, by simp⟩
    · exact .refl _ _

end

-- ---------------------------------------------------------------------------
-- How long termination takes
-- ---------------------------------------------------------------------------

def LoopState.waits : LoopState → Bool
  | .idle | .enforcing .. => true
  | _ => false

/-- The object that a pass has found populated. -/
def LoopState.listing : LoopState → Option Nat
  | .list _ a | .listed _ a _ => some a
  | _ => none

/-- `advanceClosing` has been through the object in the latest iteration. -/
def LoopState.reached (a : Nat) : LoopState → Bool
  | .idle | .enforcing .. => true
  | .enforced | .polling _ | .polled .. | .expire | .expiring _ | .prune | .collect => false
  | st => !st.addrs.contains a

def Watch.Slack (cfg : Config) (K a : Nat) (s : Watch) (first time : Int) : Prop :=
  (s.firstKill a = none → time ≤ first + cfg.termGrace) ∧ ∀ f ∈ s.firstKill a, time ≤ f + K

structure Limits (cfg : Config) (K a : Nat) (s : Watch) (first : Int) : Prop where
  past : first ≤ s.now
  kill : ∀ f ∈ s.firstKill a, f ≤ first + cfg.termGrace + second
  now : s.Slack cfg K a first (s.now - second)
  last : s.state.loop.reached a = true → s.Slack cfg K a first s.timed.last
  signalled : ∀ todo, s.state.loop = .signalled todo a → s.firstKill a = none →
    s.now ≤ first + cfg.termGrace
  listed : s.state.loop.listing = some a → s.Slack cfg K a first s.now

structure Ending (cfg : Config) (K a : Nat) (s : Watch) : Prop where
  marked : ∀ f ∈ s.firstKill a, ∀ t ∈ s.tasks cfg a, t.pid ∈ s.doomed (s.state.shared.unit cfg a)
  alive : ∀ f ∈ s.firstKill a, s.tasks cfg a ≠ [] → s.now ≤ f + K
  fresh : (s.warden.heap a).firstPass = none → s.firstKill a = none ∧
    (s.state.loop.reached a = true → s.state.loop.waits = true ∧ s.timed.last = s.timed.phase)
  limits : ∀ first ∈ (s.warden.heap a).firstPass, Limits cfg K a s first

structure Life (cfg : Config) (K a : Nat) (s : Watch) : Prop where
  unborn : s.warden.next ≤ a → s.firstKill a = none
  opened : (s.warden.heap a).state = .opened → a < s.warden.next → s.firstKill a = none
  closing : a < s.warden.next → (s.warden.heap a).state = .closing → Ending cfg K a s

section
variable {cfg : Config} {s u : Watch} {v : State}

structure Frame (cfg : Config) (a : Nat) (s u : Watch) : Prop where
  first : (u.warden.heap a).firstPass = (s.warden.heap a).firstPass
  kill : u.firstKill a = s.firstKill a
  tasks : Dwindles (s.tasks cfg a) (u.tasks cfg a)
    (s.doomed (s.state.shared.unit cfg a)) (u.doomed (u.state.shared.unit cfg a))
  now : u.now = s.now
  reached : u.state.loop.reached a = true → s.state.loop.reached a = true ∧
    u.timed.last = s.timed.last ∧ u.timed.phase = s.timed.phase ∧
    (s.state.loop.waits = true → u.state.loop.waits = true)
  signalled : ∀ todo, u.state.loop = .signalled todo a → s.state.loop = .signalled todo a
  listed : u.state.loop.listing = some a → s.state.loop.listing = some a

theorem Ending.frame (h : Ending cfg K a s) (hf : Frame cfg a s u) : Ending cfg K a u := by
  have hslack {first time : Int} (hs : s.Slack cfg K a first time) :
      u.Slack cfg K a first time := by
    unfold Watch.Slack
    rw [hf.kill]
    exact hs
  refine ⟨?_, ?_, ?_, ?_⟩
  · rw [hf.kill]
    exact fun f hk => hf.tasks.marked (h.marked f hk)
  · rw [hf.kill, hf.now]
    exact fun f hk hne => h.alive f hk (hf.tasks.nonempty hne)
  · rw [hf.first, hf.kill]
    intro hnone
    obtain ⟨hkill, hreached⟩ := h.fresh hnone
    refine ⟨hkill, fun hr => ?_⟩
    obtain ⟨hr', hlast, hphase, hwaits⟩ := hf.reached hr
    obtain ⟨hw, heq⟩ := hreached hr'
    exact ⟨hwaits hw, by rw [hlast, hphase, heq]⟩
  · rw [hf.first]
    intro first hfirst
    have hl := h.limits first hfirst
    refine ⟨by rw [hf.now]; exact hl.past, by rw [hf.kill]; exact hl.kill,
      by rw [hf.now]; exact hslack hl.now, fun hr => ?_, ?_,
      fun hst => by rw [hf.now]; exact hslack (hl.listed (hf.listed hst))⟩
    · obtain ⟨hr', hlast, -⟩ := hf.reached hr
      rw [hlast]
      exact hslack (hl.last hr')
    · rw [hf.kill, hf.now]
      exact fun todo hst => hl.signalled todo (hf.signalled todo hst)

theorem run_doom (cfg : Config) (r : Reading) (k : Option Kill)
    (h : ∀ t ∈ (s.state.shared.slices unit).tasks, t.pid ∈ s.doomed unit) :
    ∀ t ∈ (s.state.shared.slices unit).tasks, t.pid ∈ s.doom cfg k (.run r) unit := by
  intro t ht
  simp only [Watch.doom]
  split
  · rw [Function.update_apply]
    split
    · rename_i hu
      rw [Watch.tasks, ← hu]
      exact List.mem_map_of_mem ht
    · exact h t ht
  · exact h t ht
  · exact h t ht

theorem PassMove.slices (h : PassMove cfg s.state r v k) :
    v.shared.slices = s.state.shared.slices ∨
      ∃ unit, v.shared.slices = s.state.shared.slices.stop unit := by
  cases h with
  | early _ _ _ _ _ hslices => exact .inl hslices
  | stop _ _ hsh => exact .inr ⟨_, by rw [hsh]⟩
  | start _ _ hsh | collect _ _ hsh | finish _ _ hsh | signal _ _ hsh _ | list _ _ hsh
  | listed _ _ hsh | close _ _ hsh => exact .inl (by rw [hsh])
  | begin _ _ _ hsh | absent _ _ _ hsh | present _ _ _ hsh | unread _ _ _ hsh =>
    exact .inl (by rw [hsh])
  | empty _ _ _ _ hsh | populated _ _ _ _ hsh => exact .inl (by rw [hsh])

theorem PassMove.dwindles (h : PassMove cfg s.state r v k) (unit : GoString) :
    Dwindles (s.state.shared.slices unit).tasks (v.shared.slices unit).tasks
      (s.doomed unit) (s.doom cfg k (.run r) unit) := by
  rcases h.slices with heq | ⟨unit', heq⟩
  · rw [heq]
    exact ⟨id, run_doom cfg r k⟩
  · rw [heq, stop_tasks]
    split
    · exact ⟨fun hne => absurd rfl hne, by simp⟩
    · exact ⟨id, run_doom cfg r k⟩

theorem Frame.run (hm : PassMove cfg s.state r v k) (hclock : v.clock = s.state.clock)
    (hid : (v.shared.warden.heap a).id = (s.warden.heap a).id)
    (hfirst : (v.shared.warden.heap a).firstPass = (s.warden.heap a).firstPass)
    (hkill : (s.after cfg (.run r) k v).firstKill a = s.firstKill a)
    (hreached : v.loop.reached a = true → s.state.loop.reached a = true ∧
      (∀ now mono, s.state.loop ≠ .enforcing now mono) ∧
      (s.state.loop.waits = true → v.loop.waits = true))
    (hsignalled : ∀ todo, v.loop ≠ .signalled todo a)
    (hlisted : v.loop.listing = some a → s.state.loop.listing = some a) :
    Frame cfg a s (s.after cfg (.run r) k v) := by
  have hunit : v.shared.unit cfg a = s.state.shared.unit cfg a := congrArg (sliceUnit cfg) hid
  refine ⟨?_, hkill, ?_, ?_, ?_, ?_, ?_⟩
  · rw [Watch.warden, Watch.after_state]
    exact hfirst
  · simp only [Watch.tasks, Watch.after_state, hunit]
    exact hm.dwindles _
  · rw [Watch.after_now, hclock]
    rfl
  · rw [Watch.after_state]
    intro hr
    obtain ⟨hr', hne, hwaits⟩ := hreached hr
    have htimed : (s.after cfg (.run r) k v).timed = s.timed.after (.run r) v := rfl
    rw [htimed, Timed.after_run hne]
    exact ⟨hr', rfl, rfl, hwaits⟩
  · rw [Watch.after_state]
    exact fun todo hst => absurd hst (hsignalled todo)
  · rw [Watch.after_state]
    exact hlisted

theorem reached_passing {st : LoopState} (h : st.passing = some a) : st.reached a = false := by
  cases st with
  | sent | signal | signalled | list | listed | finalize | stopped =>
    cases h
    simp [LoopState.reached, LoopState.addrs]
  | _ => cases h

theorem Ending.begin (h : Ending cfg K a s) (hgrace : 0 ≤ cfg.termGrace)
    (hclock : v.clock = s.state.clock) (hv : v.loop = .sent todo a elapsed)
    (hnone : (s.warden.heap a).firstPass = none)
    (hfirst : (v.shared.warden.heap a).firstPass = some s.now)
    (hkill : (s.after cfg (.run r) k v).firstKill a = s.firstKill a) :
    Ending cfg K a (s.after cfg (.run r) k v) := by
  have hunkilled := hkill.trans (h.fresh hnone).1
  have hnow : (s.after cfg (.run r) k v).now = s.now := by
    rw [Watch.after_now, hclock]
    rfl
  have hnever {f : Int} (hf : f ∈ (s.after cfg (.run r) k v).firstKill a) : False := by
    rw [hunkilled] at hf
    cases hf
  refine ⟨fun f hf => (hnever hf).elim, fun f hf => (hnever hf).elim, ?_, ?_⟩
  · rw [Watch.warden, Watch.after_state, hfirst]
    simp
  · rw [Watch.warden, Watch.after_state, hfirst]
    intro first heq
    cases heq
    refine ⟨hnow.ge, fun f hf => (hnever hf).elim, ⟨fun _ => ?_, fun f hf => (hnever hf).elim⟩,
      ?_, ?_, ?_⟩
    · rw [hnow]
      simp only [second]
      omega
    · rw [Watch.after_state, hv, reached_passing rfl]
      simp
    · rw [Watch.after_state, hv]
      simp
    · rw [Watch.after_state, hv]
      simp [LoopState.listing]

theorem Ending.signal (h : Ending cfg K a s) (hclock : v.clock = s.state.clock)
    (hv : v.loop = .signalled todo a) (hsh : v.shared = s.state.shared) (hok : r.ok = true)
    (hk : k = if elapsed < cfg.termGrace then none else some ⟨a, r.ok⟩)
    (hfirst : (s.warden.heap a).firstPass = some first) (helapsed : elapsed = s.now - first) :
    Ending cfg K a (s.after cfg (.run r) k v) := by
  have hl := h.limits first hfirst
  have hnow : (s.after cfg (.run r) k v).now = s.now := by
    rw [Watch.after_now, hclock]
    rfl
  have hkill : (s.after cfg (.run r) k v).firstKill a =
      if elapsed < cfg.termGrace then s.firstKill a else some ((s.firstKill a).getD s.now) := by
    simp only [Watch.after, hk]
    by_cases hlt : elapsed < cfg.termGrace
    · simp only [if_pos hlt]
    · simp only [if_neg hlt, Function.update_self]
  have hdoomed : (s.after cfg (.run r) k v).doomed (s.state.shared.unit cfg a) =
      if elapsed < cfg.termGrace then s.doomed (s.state.shared.unit cfg a)
      else (s.tasks cfg a).map (·.pid) := by
    simp only [Watch.after, Watch.doom, hk, hok]
    by_cases hlt : elapsed < cfg.termGrace
    · simp only [if_pos hlt]
    · simp only [if_neg hlt, Function.update_self]
  have htasks : (s.after cfg (.run r) k v).tasks cfg a = s.tasks cfg a := by
    simp only [Watch.tasks, Watch.after_state, hsh]
  -- A kill that is written now is the first one, or there was an earlier one.
  have hcases {f : Int} (hf : f ∈ (s.after cfg (.run r) k v).firstKill a) :
      f ∈ s.firstKill a ∨ s.firstKill a = none ∧ f = s.now := by
    rw [hkill] at hf
    split at hf
    · exact .inl hf
    · cases hold : s.firstKill a with
      | none =>
        rw [hold] at hf
        cases hf
        exact .inr ⟨rfl, rfl⟩
      | some f' =>
        rw [hold] at hf
        exact .inl hf
  refine ⟨?_, ?_, ?_, ?_⟩
  · intro f hf t ht
    rw [htasks] at ht
    rw [Watch.after_state, hsh, hdoomed]
    split
    · rename_i hlt
      rw [hkill, if_pos hlt] at hf
      exact h.marked f hf t ht
    · exact List.mem_map_of_mem ht
  · intro f hf hne
    rw [htasks] at hne
    rw [hnow]
    rcases hcases hf with hold | ⟨-, rfl⟩
    · exact h.alive f hold hne
    · omega
  · rw [Watch.warden, Watch.after_state, hsh]
    intro hnone
    cases hfirst.symm.trans hnone
  · rw [Watch.warden, Watch.after_state, hsh]
    intro first' hfirst'
    cases hfirst.symm.trans hfirst'
    refine ⟨hl.past.trans hnow.ge, ?_, ⟨?_, ?_⟩, ?_, ?_, ?_⟩
    · intro f hf
      rcases hcases hf with hold | ⟨hnone, rfl⟩
      · exact hl.kill f hold
      · have := hl.now.1 hnone
        omega
    · intro hnone
      rw [hkill] at hnone
      split at hnone
      · rw [hnow]
        exact hl.now.1 hnone
      · cases hnone
    · intro f hf
      rw [hnow]
      rcases hcases hf with hold | ⟨-, rfl⟩
      · exact hl.now.2 f hold
      · simp only [second]
        omega
    · rw [Watch.after_state, hv, reached_passing rfl]
      simp
    · intro _ _ hnone
      rw [hkill] at hnone
      rw [hnow]
      split at hnone
      · omega
      · cases hnone
    · rw [Watch.after_state, hv]
      simp [LoopState.listing]

theorem Ending.passed (h : Ending cfg K a s) (hm : PassMove cfg s.state r v k)
    (hclock : v.clock = s.state.clock)
    (hid : (v.shared.warden.heap a).id = (s.warden.heap a).id)
    (hfirst : (s.warden.heap a).firstPass = some first)
    (hsame : (v.shared.warden.heap a).firstPass = some first)
    (hkill : (s.after cfg (.run r) k v).firstKill a = s.firstKill a)
    (hlast : (s.after cfg (.run r) k v).timed.last = s.now)
    (hslack : s.Slack cfg K a first s.now) (hv : ∀ todo, v.loop ≠ .signalled todo a) :
    Ending cfg K a (s.after cfg (.run r) k v) := by
  have hl := h.limits first hfirst
  have hunit : v.shared.unit cfg a = s.state.shared.unit cfg a := congrArg (sliceUnit cfg) hid
  have hnow : (s.after cfg (.run r) k v).now = s.now := by
    rw [Watch.after_now, hclock]
    rfl
  have hd : Dwindles (s.tasks cfg a) ((s.after cfg (.run r) k v).tasks cfg a)
      (s.doomed (s.state.shared.unit cfg a))
      ((s.after cfg (.run r) k v).doomed (s.state.shared.unit cfg a)) := by
    simp only [Watch.tasks, Watch.after_state, hunit]
    exact hm.dwindles _
  have hkeep {time : Int} (hs : s.Slack cfg K a first time) :
      (s.after cfg (.run r) k v).Slack cfg K a first time := by
    unfold Watch.Slack
    rw [hkill]
    exact hs
  refine ⟨?_, ?_, ?_, ?_⟩
  · rw [hkill, Watch.after_state, hunit]
    exact fun f hf => hd.marked (h.marked f hf)
  · rw [hkill, hnow]
    exact fun f hf hne => h.alive f hf (hd.nonempty hne)
  · rw [Watch.warden, Watch.after_state, hsame]
    simp
  · rw [Watch.warden, Watch.after_state, hsame]
    intro first' heq
    cases heq
    refine ⟨hl.past.trans hnow.ge, by rw [hkill]; exact hl.kill, by rw [hnow]; exact hkeep hl.now,
      fun _ => by rw [hlast]; exact hkeep hslack, ?_, fun _ => by rw [hnow]; exact hkeep hslack⟩
    rw [Watch.after_state]
    exact fun todo hst => absurd hst (hv todo)

theorem Ending.new (hnone : (u.warden.heap a).firstPass = none) (hkill : u.firstKill a = none)
    (hreached : u.state.loop.reached a = false) : Ending cfg K a u := by
  refine ⟨?_, ?_, fun _ => ⟨hkill, ?_⟩, ?_⟩
  · rw [hkill]
    simp
  · rw [hkill]
    simp
  · rw [hreached]
    simp
  · rw [hnone]
    simp

theorem Filed.own (h : Filed cfg s) (ha : a < s.warden.next)
    (hc : (s.warden.heap a).state = .closing) (hp : s.state.loop.passing = some a) :
    ∃ first, (s.warden.heap a).firstPass = some first ∧
      ∀ todo elapsed, s.state.loop = .signal todo a elapsed → elapsed = s.now - first := by
  obtain ⟨p, first, -, -, hnow, -, hfirst, hstage⟩ := h.current a hp
  refine ⟨first, ?_, fun todo elapsed hst => ?_⟩
  · rw [← h.first a ha (by rw [hc]; simp), hfirst]
  · rw [hst] at hstage
    rw [← hnow]
    exact hstage.1

theorem Tempo.last_eq {s : Timed} (h : Tempo 0 s) (hidle : s.state.loop ≠ .idle)
    (hne : ∀ now mono, s.state.loop ≠ .enforcing now mono) : s.last = s.now := by
  have hbusy := h.busy hidle hne
  have hnonneg := h.nonneg
  have hspent := h.spent
  omega

theorem early_place {st : LoopState} (h : st.early = true)
    (hne : ∀ now mono, st ≠ .enforcing now mono) :
    st.reached a = false ∧ st.waits = false ∧ st.listing = none := by
  cases st with
  | enforcing now mono => exact absurd rfl (hne now mono)
  | enforced | polling | polled | expire | expiring | prune | collect => exact ⟨rfl, rfl, rfl⟩
  | _ => cases h

theorem passing_reached {st : LoopState} (h : st.passing = some b) :
    st.reached a = !st.addrs.contains a ∧ st.waits = false ∧ st ≠ .idle ∧
      ∀ now mono, st ≠ .enforcing now mono := by
  cases st with
  | sent | signal | signalled | list | listed | finalize | stopped =>
    exact ⟨rfl, rfl, by simp, by simp⟩
  | _ => cases h

theorem Watch.after_firstKill (hk : ∀ x ∈ k, x.addr ≠ a) (r : Reading) (v : State) :
    (s.after cfg (.run r) k v).firstKill a = s.firstKill a := by
  simp only [Watch.after]
  split
  · rename_i x
    exact Function.update_of_ne (Ne.symm (hk x rfl)) _ _
  · rfl

theorem PassMove.kill (h : PassMove cfg s.state r v k) (hk : x ∈ k) :
    ∃ todo elapsed, s.state.loop = .signal todo x.addr elapsed := by
  cases h with
  | signal hst _ _ heq =>
    rw [heq] at hk
    split at hk <;> cases hk
    exact ⟨_, _, hst⟩
  | _ => cases hk

theorem Frame.onward (hm : PassMove cfg s.state r v k) (hclock : v.clock = s.state.clock)
    (hsh : v.shared.warden = s.warden) (hp : s.state.loop.passing = some b)
    (hp' : v.loop.passing = some b) (haddrs : v.loop.addrs = s.state.loop.addrs)
    (hkill : ∀ x ∈ k, x.addr ≠ a)
    (hsignalled : ∀ todo, v.loop ≠ .signalled todo a)
    (hlisted : v.loop.listing = some a → s.state.loop.listing = some a) :
    Frame cfg a s (s.after cfg (.run r) k v) := by
  obtain ⟨hr, hw, -, hne⟩ := passing_reached (a := a) hp
  obtain ⟨hr', -, -, -⟩ := passing_reached (a := a) hp'
  refine .run hm hclock (by rw [hsh]) (by rw [hsh]) (Watch.after_firstKill hkill r v)
    (fun hv => ⟨?_, hne, fun h => ?_⟩) hsignalled hlisted
  · rw [hr, ← haddrs, ← hr']
    exact hv
  · rw [hw] at h
    cases h

theorem Frame.over (hm : PassMove cfg s.state r v k) (hclock : v.clock = s.state.clock)
    (hid : (v.shared.warden.heap a).id = (s.warden.heap a).id)
    (hfirst : (v.shared.warden.heap a).firstPass = (s.warden.heap a).firstPass)
    (hp : s.state.loop.passing = some b) (hab : b ≠ a) (haddrs : s.state.loop.addrs = b :: todo)
    (hkill : ∀ x ∈ k, x.addr ≠ a)
    (hv : v.loop = .closing todo) : Frame cfg a s (s.after cfg (.run r) k v) := by
  obtain ⟨hr, hw, -, hne⟩ := passing_reached (a := a) hp
  refine .run hm hclock hid hfirst (Watch.after_firstKill hkill r v)
    (fun hreached => ⟨?_, hne, fun h => ?_⟩) ?_ ?_
  · rw [hv] at hreached
    rw [hr, haddrs, List.contains_cons, beq_false_of_ne (Ne.symm hab), Bool.false_or]
    exact hreached
  · rw [hw] at h
    cases h
  all_goals
    rw [hv]
    simp [LoopState.listing]

theorem PassMove.first (hm : PassMove cfg s.state r v k) (hI : Inv s.state)
    (hc : (s.warden.heap a).state = .closing) (hc' : (v.shared.warden.heap a).state = .closing) :
    (v.shared.warden.heap a).firstPass = (s.warden.heap a).firstPass ∨
      (s.warden.heap a).firstPass = none ∧ (v.shared.warden.heap a).firstPass = some s.now := by
  cases hm with
  | early _ _ _ hturns => exact .inl (hturns a).firstPass
  | @begin todo b hst hpick _ hsh =>
    have hclosing := (hI.terminating b (by rw [hst]; exact List.mem_of_getElem? hpick)).2
    rw [hsh]
    simp only [(beginTerm_eq s.state.clock.mono hclosing).2, heap_write]
    split
    · rename_i hab
      subst hab
      cases (s.warden.heap a).firstPass with
      | none => exact .inr ⟨rfl, if_pos ⟨hc, rfl⟩⟩
      | some first => exact .inl (if_pos ⟨hc, rfl⟩)
    · exact .inl rfl
  | listed _ _ hsh =>
    rw [hsh]
    exact .inl (setRemaining_turns _ _ _ a).firstPass
  | close _ _ hsh =>
    rw [hsh] at hc' ⊢
    simp only [markClosed, heap_write] at hc' ⊢
    split
    · rename_i hab
      rw [if_pos hab] at hc'
      cases hc'
    · exact .inl rfl
  | finish _ _ hsh => exact .inl (by rw [hsh]; rfl)
  | start _ _ hsh | collect _ _ hsh | signal _ _ hsh _ | list _ _ hsh | stop _ _ hsh =>
    exact .inl (by rw [hsh])
  | absent _ _ _ hsh | present _ _ _ hsh | unread _ _ _ hsh => exact .inl (by rw [hsh])
  | empty _ _ _ _ hsh | populated _ _ _ _ hsh => exact .inl (by rw [hsh])

theorem Ending.run (h : Ending cfg K a s) (hF : Filed cfg s) (hI : Inv s.state)
    (hT : Tempo 0 s.timed) (hgrace : 0 ≤ cfg.termGrace)
    (hworks : ∀ x ∈ opens s.state (.run r), x.1 = a → x.2 = true)
    (hm : PassMove cfg s.state r v k) (hclock : v.clock = s.state.clock)
    (hid : (v.shared.warden.heap a).id = (s.warden.heap a).id) (ha : a < s.warden.next)
    (hc : (s.warden.heap a).state = .closing) (hc' : (v.shared.warden.heap a).state = .closing) :
    Ending cfg K a (s.after cfg (.run r) k v) := by
  have hlast (hp : s.state.loop.passing = some a) :
      (s.after cfg (.run r) k v).timed.last = s.now := by
    obtain ⟨-, -, hidle, hne⟩ := passing_reached (a := a) hp
    have htimed : (s.after cfg (.run r) k v).timed = s.timed.after (.run r) v := rfl
    rw [htimed, Timed.after_run hne]
    exact hT.last_eq hidle hne
  have hmove := hm
  cases hm with
  | start hst hst' hsh =>
    refine h.frame (.run hmove hclock hid (by rw [hsh])
      (Watch.after_firstKill (by simp) r v)
      (fun _ => ⟨by rw [hst]; rfl, by rw [hst]; simp, fun _ => by rw [hst']; rfl⟩) ?_ ?_) <;>
      rw [hst'] <;> simp [LoopState.listing]
  | early hst hst' hne hturns hgrants hslices =>
    obtain ⟨hreached, -, hnone⟩ := early_place (a := a) hst' hne
    refine h.frame (.run hmove hclock hid (hturns a).firstPass
      (Watch.after_firstKill (by simp) r v) (fun hr => ?_) ?_ ?_)
    · rw [hreached] at hr
      cases hr
    · intro todo hl
      rw [hl] at hst'
      cases hst'
    · rw [hnone]
      simp
  | collect hst hst' hsh =>
    have hmem : a ∈ s.warden.closingAddrs := by
      obtain ⟨e, he, hea⟩ := mapped_iff.mp (hI.objects.unmapped a ha (by rw [hc]; simp))
      refine List.mem_map.mpr ⟨e, List.mem_filter.mpr ⟨he, ?_⟩, hea⟩
      simpa [hea] using hc
    refine h.frame (.run hmove hclock hid (by rw [hsh])
      (Watch.after_firstKill (by simp) r v) (fun hr => ?_) ?_ ?_)
    · rw [hst'] at hr
      simp [LoopState.reached, LoopState.addrs, hmem] at hr
    all_goals
      rw [hst']
      simp [LoopState.listing]
  | finish hst hst' hsh =>
    refine h.frame (.run hmove hclock hid (by rw [hsh]; rfl)
      (Watch.after_firstKill (by simp) r v)
      (fun _ => ⟨by rw [hst]; rfl, by rw [hst]; simp, fun _ => by rw [hst']; rfl⟩) ?_ ?_) <;>
      rw [hst'] <;> simp [LoopState.listing]
  | @begin todo b hst hpick hst' hsh =>
    rcases hmove.first hI hc hc' with hsame | ⟨hnone, hnew⟩
    · refine h.frame (.run hmove hclock hid hsame
        (Watch.after_firstKill (by simp) r v)
        (fun hr => ⟨?_, by rw [hst]; simp, by rw [hst]; simp [LoopState.waits]⟩) ?_ ?_)
      · -- The list and the object in hand are the list there was.
        obtain ⟨hlt, rfl⟩ := List.getElem?_eq_some_iff.mp hpick
        have hmem := (List.getElem_cons_eraseIdx_perm hlt).mem_iff (a := a)
        rw [hst'] at hr
        simp only [LoopState.reached, LoopState.addrs, List.contains_eq_mem, hmem] at hr
        rw [hst]
        simpa [LoopState.reached, LoopState.addrs] using hr
      all_goals
        rw [hst']
        simp [LoopState.listing]
    · have hab : a = b := by
        by_contra hab
        rw [hsh] at hnew
        simp only [beginTerm, heap_write, if_neg hab] at hnew
        cases hnone.symm.trans hnew
      rw [← hab] at hst'
      exact h.begin hgrace hclock hst' hnone hnew
        (Watch.after_firstKill (by simp) r v)
  | absent hst _ hst' hsh | present hst _ hst' hsh =>
    refine h.frame (.onward hmove hclock (by rw [hsh]) (by rw [hst]; rfl) (by rw [hst']; rfl)
      (by rw [hst, hst']; rfl) (by simp) ?_ ?_) <;> rw [hst'] <;> simp [LoopState.listing]
  | empty hst hok htasks hst' hsh =>
    refine h.frame (.onward hmove hclock (by rw [hsh]) (by rw [hst]; rfl) (by rw [hst']; rfl)
      (by rw [hst, hst']; rfl) (by simp) ?_ ?_) <;> rw [hst'] <;> simp [LoopState.listing]
  | stop hst hst' hsh =>
    refine h.frame (.onward hmove hclock (by rw [hsh]) (by rw [hst]; rfl) (by rw [hst']; rfl)
      (by rw [hst, hst']; rfl) (by simp) ?_ ?_) <;> rw [hst'] <;> simp [LoopState.listing]
  | list hst hst' hsh =>
    refine h.frame (.onward hmove hclock (by rw [hsh]) (by rw [hst]; rfl) (by rw [hst']; rfl)
      (by rw [hst, hst']; rfl) (by simp) ?_ ?_)
    · rw [hst']
      simp
    · rw [hst, hst']
      exact id
  | @signal todo b elapsed _ hst hst' hsh hk =>
    by_cases hab : b = a
    · subst hab
      obtain ⟨first, hfirst, helapsed⟩ := hF.own ha hc (by rw [hst]; rfl)
      have hwrite := hworks _ (show (b, r.ok) ∈ opens s.state (.run r) by simp [opens, hst]) rfl
      exact h.signal hclock hst' hsh hwrite hk hfirst (helapsed _ _ hst)
    · refine h.frame (.onward hmove hclock (by rw [hsh]) (by rw [hst]; rfl) (by rw [hst']; rfl)
        (by rw [hst, hst']; rfl) ?_ ?_ ?_)
      · intro x hx
        obtain ⟨_, _, hsig⟩ := hmove.kill hx
        cases hst.symm.trans hsig
        exact hab
      · rintro _ heq
        cases hst'.symm.trans heq
        exact hab rfl
      all_goals
        rw [hst']
        simp [LoopState.listing]
  | @populated todo b hst hok htasks hst' hsh =>
    by_cases hab : b = a
    · subst hab
      obtain ⟨first, hfirst, -⟩ := hF.own ha hc (by rw [hst]; rfl)
      have hl := h.limits first hfirst
      refine h.passed hmove hclock hid hfirst (by rw [hsh]; exact hfirst)
        (Watch.after_firstKill (by simp) r v) (hlast (by rw [hst]; rfl))
        ⟨fun hnone => hl.signalled _ hst hnone, fun f hf => h.alive f hf htasks⟩ ?_
      rw [hst']
      simp
    · refine h.frame (.onward hmove hclock (by rw [hsh]) (by rw [hst]; rfl) (by rw [hst']; rfl)
        (by rw [hst, hst']; rfl) (by simp) ?_ ?_)
      · rw [hst']
        simp
      · rw [hst']
        rintro ⟨⟩
        exact absurd rfl hab
  | @unread todo b hst hok hst' hsh =>
    refine h.frame (.over hmove hclock hid (by rw [hsh]) (by rw [hst]; rfl) ?_ (by rw [hst]; rfl)
      (by simp) hst')
    rintro rfl
    have hread := hworks _ (show (b, r.ok) ∈ opens s.state (.run r) by simp [opens, hst]) rfl
    cases hok.symm.trans hread
  | @listed todo b pids hst hst' hsh =>
    have hsame : (v.shared.warden.heap a).firstPass = (s.warden.heap a).firstPass := by
      rw [hsh]
      exact (setRemaining_turns s.warden b pids a).firstPass
    by_cases hab : b = a
    · subst hab
      obtain ⟨first, hfirst, -⟩ := hF.own ha hc (by rw [hst]; rfl)
      refine h.passed hmove hclock hid hfirst (hsame.trans hfirst)
        (Watch.after_firstKill (by simp) r v) (hlast (by rw [hst]; rfl))
        ((h.limits first hfirst).listed (by rw [hst]; rfl)) ?_
      rw [hst']
      simp
    · exact h.frame (.over hmove hclock hid hsame (by rw [hst]; rfl) hab (by rw [hst]; rfl)
        (by simp) hst')
  | @close todo b hst hst' hsh =>
    have hab : b ≠ a := by
      rintro rfl
      rw [hsh] at hc'
      simp [markClosed] at hc'
    refine h.frame (.over hmove hclock hid ?_ (by rw [hst]; rfl) hab (by rw [hst]; rfl)
      (by simp) hst')
    rw [hsh]
    simp only [markClosed, heap_write, if_neg (Ne.symm hab)]

theorem Ending.tick (h : Ending cfg K a s) (hT : Tempo 0 s.timed) (hok : Dying cfg K a s (.tick c))
    (hidle : s.state.loop = .idle) (hloop : v.loop = s.state.loop) (hclock : v.clock = c)
    (hsh : v.shared = s.state.shared) : Ending cfg K a (s.after cfg (.tick c) none v) := by
  have hnow : (s.after cfg (.tick c) none v).now = c.mono := by
    rw [Watch.after_now, hclock]
  have htasks : (s.after cfg (.tick c) none v).tasks cfg a = s.tasks cfg a := by
    simp only [Watch.tasks, Watch.after_state, hsh]
  have hlimit : c.mono ≤ max s.now s.timed.due :=
    Timed.limit_idle hidle ▸ hok.ticking.1.2.1
  have hdue := hT.due
  -- The latest pass was made at `last`, and the tick comes a second later.
  have hslack {first : Int} (hl : Limits cfg K a s first) :
      s.Slack cfg K a first (c.mono - second) := by
    have hlast := hl.last (by rw [hidle]; rfl)
    refine ⟨fun hnone => ?_, fun f hf => ?_⟩
    · have h1 := hl.now.1 hnone
      have h2 := hlast.1 hnone
      omega
    · have h1 := hl.now.2 f hf
      have h2 := hlast.2 f hf
      omega
  refine ⟨?_, ?_, ?_, ?_⟩
  · intro f hf
    rw [htasks, Watch.after_state, hsh]
    exact h.marked f hf
  · intro f hf hne
    rw [htasks] at hne
    rw [hnow]
    obtain ⟨t, ht⟩ := List.exists_mem_of_ne_nil _ hne
    exact hok.mortal c rfl f hf ⟨t, ht, h.marked f hf t ht⟩
  · rw [Watch.warden, Watch.after_state, hsh, hloop]
    exact h.fresh
  · rw [Watch.warden, Watch.after_state, hsh]
    intro first hfirst
    have hl := h.limits first hfirst
    refine ⟨(hl.past.trans hok.ticking.1.1).trans hnow.ge, hl.kill, by rw [hnow]; exact hslack hl,
      ?_, ?_, ?_⟩
    · rw [Watch.after_state, hloop]
      exact hl.last
    · rw [Watch.after_state, hloop, hidle]
      simp
    · rw [Watch.after_state, hloop, hidle]
      simp [LoopState.listing]

theorem Frame.other (hrun : ∀ r, act ≠ .run r) (hloop : v.loop = s.state.loop)
    (hclock : v.clock = s.state.clock)
    (hid : (v.shared.warden.heap a).id = (s.warden.heap a).id)
    (hfirst : (v.shared.warden.heap a).firstPass = (s.warden.heap a).firstPass)
    (hd : Dwindles (s.tasks cfg a) (v.shared.slices (s.state.shared.unit cfg a)).tasks
      (s.doomed (s.state.shared.unit cfg a)) (s.doom cfg none act (s.state.shared.unit cfg a))) :
    Frame cfg a s (s.after cfg act none v) := by
  have hunit : v.shared.unit cfg a = s.state.shared.unit cfg a := congrArg (sliceUnit cfg) hid
  obtain ⟨-, hkill, -⟩ := Watch.after_other cfg hrun s v
  refine ⟨?_, by rw [hkill], ?_, ?_, ?_, ?_, ?_⟩
  · rw [Watch.warden, Watch.after_state]
    exact hfirst
  · simp only [Watch.tasks, Watch.after_state, hunit]
    exact hd
  · rw [Watch.after_now, hclock]
    rfl
  · rw [Watch.after_state, hloop]
    have htimed : (s.after cfg act none v).timed.last = s.timed.last ∧
        (s.after cfg act none v).timed.phase = s.timed.phase := by
      cases act with
      | run r => exact absurd rfl (hrun r)
      | tick | admitStart | admitStep | attachStart | attach | exit | fork | collect =>
        exact ⟨rfl, rfl⟩
    exact fun hr => ⟨hr, htimed.1, htimed.2, id⟩
  · rw [Watch.after_state, hloop]
    exact fun todo hst => hst
  · rw [Watch.after_state, hloop]
    exact id

theorem PassMove.closes (hm : PassMove cfg s.state r v k)
    (ho : (s.warden.heap a).state = .opened) (hc : (v.shared.warden.heap a).state = .closing) :
    (v.shared.warden.heap a).firstPass = none ∧ v.loop.reached a = false := by
  have hsame (h : (v.shared.warden.heap a).state = (s.warden.heap a).state) :
      (v.shared.warden.heap a).firstPass = none ∧ v.loop.reached a = false := by
    rw [ho, hc] at h
    cases h
  cases hm with
  | early hst hst' hne hturns =>
    refine ⟨?_, (early_place hst' hne).1⟩
    rw [(hturns a).firstPass]
    simp [Grant.firstPass, ho]
  | begin _ _ _ hsh =>
    refine hsame ?_
    rw [hsh]
    exact beginTerm_state ..
  | listed _ _ hsh =>
    refine hsame ?_
    rw [hsh]
    simp only [setRemaining, heap_write]
    split
    · rename_i hb
      rw [hb]
    · rfl
  | close _ _ hsh =>
    rw [hsh] at hc
    simp only [markClosed, heap_write] at hc
    split at hc
    · cases hc
    · cases ho.symm.trans hc
  | finish _ _ hsh => exact hsame (by rw [hsh]; rfl)
  | start _ _ hsh | collect _ _ hsh | signal _ _ hsh _ | list _ _ hsh | stop _ _ hsh =>
    exact hsame (by rw [hsh])
  | absent _ _ _ hsh | present _ _ _ hsh | unread _ _ _ hsh => exact hsame (by rw [hsh])
  | empty _ _ _ _ hsh | populated _ _ _ _ hsh => exact hsame (by rw [hsh])

theorem Life.run (h : Life cfg K a s) (hF : Filed cfg s) (hI : Inv s.state)
    (hT : Tempo 0 s.timed) (hgrace : 0 ≤ cfg.termGrace)
    (hworks : ∀ x ∈ opens s.state (.run r), x.1 = a → x.2 = true)
    (hm : PassMove cfg s.state r v k) (hclock : v.clock = s.state.clock)
    (hnext : v.shared.warden.next = s.warden.next)
    (hmoves : a < s.warden.next → Moves cfg s.state (.run r) a (v.shared.warden.heap a)) :
    Life cfg K a (s.after cfg (.run r) k v) := by
  -- Only a Closing object is killed.
  have hkill (hne : a < s.warden.next → (s.warden.heap a).state ≠ .closing) :
      (s.after cfg (.run r) k v).firstKill a = s.firstKill a := by
    refine Watch.after_firstKill (fun x hx heq => ?_) r v
    obtain ⟨todo, elapsed, hst⟩ := hm.kill hx
    obtain ⟨hlt, hc⟩ := hI.terminating a (by rw [hst, heq]; exact List.mem_cons_self)
    exact hne hlt hc
  have hopened (ho : (s.warden.heap a).state = .opened) (ha : a < s.warden.next) :
      (s.after cfg (.run r) k v).firstKill a = none := by
    rw [hkill fun _ => by rw [ho]; simp]
    exact h.opened ho ha
  refine ⟨?_, ?_, ?_⟩
  · rw [Watch.warden, Watch.after_state, hnext]
    intro hge
    rw [hkill fun hlt => absurd hlt (Nat.not_lt.mpr hge)]
    exact h.unborn hge
  · rw [Watch.warden, Watch.after_state, hnext]
    exact fun ho ha => hopened ((hmoves ha).opened ho) ha
  · rw [Watch.warden, Watch.after_state, hnext]
    intro ha hc
    cases hs : (s.warden.heap a).state with
    | closing =>
      exact (h.closing ha hs).run hF hI hT hgrace hworks hm hclock (hmoves ha).id_eq ha hs hc
    | opened =>
      obtain ⟨hfirst, hreached⟩ := hm.closes hs hc
      refine .new ?_ (hopened hs ha) ?_
      · rw [Watch.warden, Watch.after_state]
        exact hfirst
      · rw [Watch.after_state]
        exact hreached
    | closed => cases ((hmoves ha).closed_stays hs).symm.trans hc

theorem Life.other (h : Life cfg K a s) (hT : Tempo 0 s.timed) (hok : Dying cfg K a s act)
    (hbase : step cfg s.state act = some v) (hrun : ∀ r, act ≠ .run r)
    (hloop : v.loop = s.state.loop) : Life cfg K a (s.after cfg act none v) := by
  obtain ⟨-, hkill, -⟩ := Watch.after_other cfg hrun s v
  have hsec := step_section cfg hbase
  have hrecord (ha : a < s.warden.next) := step_record hbase hrun ha
  refine ⟨?_, ?_, ?_⟩
  · rw [Watch.warden, Watch.after_state, hkill]
    exact fun hge => h.unborn (hsec.map.next_le.trans hge)
  · rw [Watch.warden, Watch.after_state, hkill]
    intro ho _
    by_cases ha : a < s.warden.next
    · exact h.opened ((hrecord ha).1.symm.trans ho) ha
    · exact h.unborn (Nat.le_of_not_lt ha)
  · rw [Watch.warden, Watch.after_state]
    intro ha hc
    have hlt : a < s.warden.next := by
      rcases hsec.map.lt_cases ha with hlt | ⟨-, _, _, _, _, hheap⟩
      · exact hlt
      · rw [hheap] at hc
        cases hc
    obtain ⟨hstate, hsent, hsince⟩ := hrecord hlt
    have hs := hstate.symm.trans hc
    have hend := h.closing hlt hs
    have hframe (hclock : v.clock = s.state.clock) : Frame cfg a s (s.after cfg act none v) := by
      have hfirst := (Turns.same hstate hsent hsince).firstPass
      refine .other hrun hloop hclock (hsec.moves cfg hlt).id_eq hfirst
        (other_dwindles hbase hrun fun id hid hunit => ?_)
      exact hok.alone hlt hs id hid (sliceUnit_inj hunit).symm
    rcases step_clock hbase with ⟨hclock, -⟩ | rfl
    · exact hend.frame (hframe hclock)
    · by_cases hidle : s.state.loop = .idle
      · have hsh : v.shared = s.state.shared := by rw [← Option.some.inj hbase]
        exact hend.tick hT hok hidle hloop rfl hsh
      · exact hend.frame (hframe (hok.ticking.still hT hidle))

theorem Life.step (h : Life cfg K a s) (hF : Filed cfg s) (hI : Inv s.state)
    (hT : Tempo 0 s.timed) (hgrace : 0 ≤ cfg.termGrace) (hok : Dying cfg K a s act)
    (hstep : (reaping cfg).step s act = some u) : Life cfg K a u := by
  obtain ⟨t, k, hbase, hu, heq⟩ := reaping_step hstep
  obtain ⟨hw, -, hc, -⟩ := linger_warden hu hbase
  have hsec := step_section cfg hbase
  rw [heq]
  rcases step_loop hbase with ⟨hloop, hrun⟩ | ⟨r, _, _, rfl, -, -⟩
  · obtain ⟨hsame, rfl⟩ := linger_other hrun hu
    cases hbase.symm.trans hsame
    exact h.other hT hok hbase hrun hloop
  · have hclock : t.clock = s.state.clock := by
      rcases step_clock hbase with ⟨hclock, -⟩ | hr
      · exact hclock
      · cases hr
    refine h.run hF hI hT hgrace hok.works (linger_passMove hu) (by rw [hc, hclock]) ?_ ?_
    · rw [hw]
      exact hsec.run_next
    · rw [hw]
      exact fun ha => hsec.moves cfg ha

theorem Life.reachable (hs : (reaping cfg).Reachable (Dying cfg K a) s)
    (hgrace : 0 ≤ cfg.termGrace) : Life cfg K a s := by
  refine hs.induction (I := fun s => Life cfg K a s) ?_ ?_
  · rintro s ⟨hinit, hsent, hfresh, -, hkill, -, -⟩
    refine ⟨fun _ => by rw [hkill], fun _ _ => by rw [hkill], fun ha hc => ?_⟩
    have hnone : (s.warden.heap a).firstPass = none := by
      rw [Grant.firstPass, if_neg]
      rintro ⟨-, htrue⟩
      rw [hsent a ha hc] at htrue
      cases htrue
    refine ⟨by rw [hkill]; simp, by rw [hkill]; simp, fun _ => ⟨by rw [hkill], fun _ => ?_⟩,
      by rw [hnone]; simp⟩
    rw [hinit.loop]
    exact ⟨rfl, hfresh.last.trans hfresh.phase.symm⟩
  · intro s act u hreach hL hok hstep
    have hticking := hreach.mono fun s act (h : Dying cfg K a s act) => h.ticking
    exact hL.step (Filed.reachable hticking) (reaping_inv hreach) (Ticking.tempo hticking) hgrace
      hok hstep

theorem Timed.after_phase (s : Timed) (act : Action) (t : State) :
    (s.after act t).phase = s.phase := by
  cases act with
  | run r =>
    simp only [Timed.after]
    split <;> rfl
  | tick | admitStart | admitStep | attachStart | attach | exit | fork | collect => rfl

theorem reaping_first (hI : Inv s.state) (hstep : (reaping cfg).step s act = some u)
    (ha : a < s.warden.next) (hc : (s.warden.heap a).state = .closing)
    (hc' : (u.warden.heap a).state = .closing) :
    (u.warden.heap a).firstPass = (s.warden.heap a).firstPass ∨
      (s.warden.heap a).firstPass = none ∧ (u.warden.heap a).firstPass = some s.now := by
  obtain ⟨t, k, hbase, hu, -⟩ := reaping_step hstep
  obtain ⟨hw, -, -, -⟩ := linger_warden hu hbase
  rcases step_loop hbase with ⟨-, hrun⟩ | ⟨r, _, _, rfl, -, -⟩
  · obtain ⟨hstate, hsent, hsince⟩ := step_record hbase hrun ha
    rw [Watch.warden, hw]
    exact .inl (Turns.same hstate hsent hsince).firstPass
  · exact (linger_passMove hu).first hI hc hc'

theorem reaping_fresh (hT : Tempo 0 s.timed) (hend : Ending cfg K a s) (hok : Ticking s act)
    (hstep : (reaping cfg).step s act = some u) (hnone : (s.warden.heap a).firstPass = none) :
    u.now = s.now ∨ u.now ≤ max s.now (s.timed.phase + second) := by
  obtain ⟨t, k, hbase, hu, -⟩ := reaping_step hstep
  obtain ⟨-, -, hclk, -⟩ := linger_warden hu hbase
  have hnow : u.now = t.clock.mono := congrArg Clock.mono hclk
  rcases step_clock hbase with ⟨hclock, -⟩ | rfl
  · exact .inl (by rw [hnow, hclock]; rfl)
  · by_cases hidle : s.state.loop = .idle
    · have hlimit : t.clock.mono ≤ max s.now s.timed.due := Timed.limit_idle hidle ▸ hok.1.2.1
      have hdue := hT.due
      have hlast := ((hend.fresh hnone).2 (by rw [hidle]; rfl)).2
      rw [hnow]
      omega
    · exact .inl (by rw [hnow, hok.still hT hidle]; rfl)

theorem closing_run (hgrace : 0 ≤ cfg.termGrace) (hs : (reaping cfg).Reachable (Dying cfg K a) s)
    (hrun : (reaping cfg).Run (Dying cfg K a) s u) (ha : a < s.warden.next)
    (hc : (s.warden.heap a).state = .closing) :
    a < u.warden.next ∧ u.timed.phase = s.timed.phase ∧
    ((u.warden.heap a).state = .closed ∨ (u.warden.heap a).state = .closing ∧
      ((u.warden.heap a).firstPass = none → u.now ≤ s.now + second) ∧
      ∀ first ∈ (u.warden.heap a).firstPass, first ≤ s.now + second) := by
  have hticking {w : Watch} (hw : (reaping cfg).Reachable (Dying cfg K a) w) :=
    hw.mono fun s act (h : Dying cfg K a s act) => h.ticking
  have hT := Ticking.tempo (hticking hs)
  induction hrun with
  | refl =>
    refine ⟨ha, rfl, .inr ⟨hc, fun _ => ?_, fun first hfirst => ?_⟩⟩
    · simp only [second]
      omega
    · have hpast := (((Life.reachable hs hgrace).closing ha hc).limits first hfirst).past
      simp only [second]
      omega
  | @step t w act hrun' hok hstep ih =>
    obtain ⟨hlt, hphase, hstate⟩ := ih
    have hreach := hs.run hrun'
    obtain ⟨t', k, hbase, hu, heq⟩ := reaping_step hstep
    have hwarden : w.warden = t'.shared.warden := (linger_warden hu hbase).1
    have hsec : Section cfg t.state act w.warden := hwarden ▸ step_section cfg hbase
    have hmoves := hsec.moves cfg hlt
    refine ⟨hlt.trans_le hsec.map.next_le, ?_, ?_⟩
    · rw [heq]
      exact (Timed.after_phase ..).trans hphase
    · rcases hstate with hclosed | ⟨hclosing, hnone, hsome⟩
      · exact .inl (hmoves.closed_stays hclosed)
      · cases hc' : (w.warden.heap a).state with
        | opened => cases (hmoves.opened hc').symm.trans hclosing
        | closed => exact .inl rfl
        | closing =>
          have hT' := Ticking.tempo (hticking hreach)
          have hend := (Life.reachable hreach hgrace).closing hlt hclosing
          have hfirst := reaping_first (reaping_inv hreach) hstep hlt hclosing hc'
          refine .inr ⟨rfl, fun hnone' => ?_, fun first hsome' => ?_⟩
          · have hold : (t.warden.heap a).firstPass = none := by
              rcases hfirst with hsame | ⟨hold, -⟩
              · exact hsame.symm.trans hnone'
              · exact hold
            have hnow := hnone hold
            have hphase' := hT.phase
            have hlast : s.timed.last ≤ s.now := hT.last
            rcases reaping_fresh hT' hend hok.ticking hstep hold with h | h
            · omega
            · rw [hphase] at h
              omega
          · rcases hfirst with hsame | ⟨hold, hnew⟩
            · exact hsome first (hsame ▸ hsome')
            · cases hnew.symm.trans hsome'
              exact hnone hold

theorem closed_in_time (hgrace : 0 ≤ cfg.termGrace)
    (hs : (reaping cfg).Reachable (Dying cfg K a) s)
    (hrun : (reaping cfg).Run (Dying cfg K a) s u) (ha : a < s.warden.next)
    (hc : (s.warden.heap a).state = .closing)
    (hlate : s.now + cfg.termGrace + K + 3 * second < u.now) :
    (u.warden.heap a).state = .closed := by
  obtain ⟨hlt, -, hclosed | ⟨hclosing, hnone, hsome⟩⟩ := closing_run hgrace hs hrun ha hc
  · exact hclosed
  · exfalso
    simp only [second] at hlate hnone hsome
    cases hfirst : (u.warden.heap a).firstPass with
    | none =>
      have := hnone hfirst
      omega
    | some first =>
      have hl := ((Life.reachable (hs.run hrun) hgrace).closing hlt hclosing).limits first hfirst
      have hfirst' := hsome first hfirst
      have hkill := hl.kill
      obtain ⟨hbefore, hafter⟩ := hl.now
      simp only [second] at hkill hbefore hafter
      cases hf : u.firstKill a with
      | none =>
        have := hbefore hf
        omega
      | some f =>
        have h1 := hkill f hf
        have h2 := hafter f hf
        omega

end

end Grantd.Warden
