import Grantd.Warden.Deadline

/-!
# The run loop in time

`Run` is one goroutine: it takes a tick, goes through its steps one after the
other and waits for the next tick. Time passes while it waits, and while it is
in a call: a query of the signer, or `StopUnit`. A ticker holds one tick for a
loop that comes late and drops the others.
-/

namespace Grantd.Warden

open Base

/-- How long the call that the loop is in may take: the timeout of the signer's
client, and the one of a systemd command. -/
def LoopState.timeout : LoopState → Option Int
  | .polling (_ :: _) => some (5 * second)
  | .finalize .. => some (15 * second)
  | _ => none

def LoopState.isIdle : LoopState → Bool
  | .idle => true
  | _ => false

/-- The warden with its ticker. For the record, `last` is when deadlines were
last enforced, `began` when the loop came to where it stands, and `spent` the
time that calls have taken since `last`. -/
structure Timed where
  state : State
  phase : Int
  due : Int
  last : Int
  began : Int
  spent : Int

def Timed.now (s : Timed) : Int := s.state.clock.mono

def nextTick (phase now : Int) : Int := phase + ((now - phase) / second + 1) * second

def Timed.after (s : Timed) (act : Action) (t : State) : Timed :=
  match act with
  | .tick c =>
    { s with
      state := t
      spent := if s.state.loop.timeout.isSome then s.spent + (c.mono - s.now) else s.spent }
  | .run _ =>
    match s.state.loop with
    | .enforcing .. =>
      { s with
        state := t, due := nextTick s.phase s.now, last := s.now, began := s.now, spent := 0 }
    | _ => { s with state := t, began := s.now }
  | _ => { s with state := t }

structure Timed.Fresh (s : Timed) : Prop where
  phase : s.phase = s.now
  due : s.due = s.now + second
  last : s.last = s.now
  began : s.began = s.now
  spent : s.spent = 0

def timed (cfg : Config) : Machine Timed Action where
  Init s := Initial cfg s.state ∧ s.Fresh
  step s act := (step cfg s.state act).map (s.after act)

/-- How far the clock can go before the loop takes its next step. -/
def Timed.limit (s : Timed) : Int :=
  match s.state.loop with
  | .idle => max s.now s.due
  | loop =>
    match loop.timeout with
    | some longest => s.began + longest
    | none => s.now

/-- The clocks do not go back and show one time at one instant; nothing but a
call takes time; an iteration begins with a tick. -/
def Paced (s : Timed) : Action → Prop
  | .tick c =>
    s.now ≤ c.mono ∧ c.mono ≤ s.limit ∧ s.state.clock.wall ≤ c.wall ∧
      (c.mono = s.now → c = s.state.clock)
  | .run _ => s.state.loop.isIdle = true → s.due ≤ s.now
  | _ => True

instance (s : Timed) : DecidablePred (Paced s)
  | .tick c => inferInstanceAs (Decidable (s.now ≤ c.mono ∧ c.mono ≤ s.limit ∧
      s.state.clock.wall ≤ c.wall ∧ (c.mono = s.now → c = s.state.clock)))
  | .run _ => inferInstanceAs (Decidable (s.state.loop.isIdle = true → s.due ≤ s.now))
  | .admitStart .. | .admitStep .. | .attachStart .. | .attach .. | .exit .. | .fork ..
  | .collect .. => isTrue trivial

-- ---------------------------------------------------------------------------
-- What a step does to the clock and to the loop
-- ---------------------------------------------------------------------------

inductive Advance (s : State) : Action → State → Prop
  | tick : t.clock = c → t.loop = s.loop → Advance s (.tick c) t
  | start : s.loop = .idle → t.loop = .enforcing s.clock.wall s.clock.mono →
      t.clock = s.clock → Advance s (.run r) t
  | enforce : s.loop = .enforcing now mono → t.loop = .enforced → t.clock = s.clock →
      Advance s (.run r) t
  | run : s.loop ≠ .idle → (∀ now mono, s.loop ≠ .enforcing now mono) →
      (∀ now mono, t.loop ≠ .enforcing now mono) → t.clock = s.clock → Advance s (.run r) t
  | other : (∀ c, act ≠ .tick c) → (∀ r, act ≠ .run r) → t.loop = s.loop → t.clock = s.clock →
      Advance s act t

theorem step_clock (h : step cfg s act = some t) :
    t.clock = s.clock ∧ (∀ c, act ≠ .tick c) ∨ act = .tick t.clock := by
  cases act with
  | tick c =>
    cases h
    exact .inr rfl
  | exit unit pid =>
    cases h
    exact .inl ⟨rfl, fun c hc => by cases hc⟩
  | admitStart | admitStep | attachStart | attach | run | fork | collect =>
    simp only [step] at h
    split at h <;> cases h
    exact .inl ⟨rfl, fun c hc => by cases hc⟩

theorem loopNext_enforcing (h : loopNext cfg clock r m last st = some (st', last', m', k)) :
    st = .idle ∧ st' = .enforcing clock.wall clock.mono ∨
    (∃ now mono, st = .enforcing now mono ∧ st' = .enforced) ∨
    st ≠ .idle ∧ (∀ now mono, st ≠ .enforcing now mono) ∧
      ∀ now mono, st' ≠ .enforcing now mono := by
  cases st with
  | idle =>
    cases h
    exact .inl ⟨rfl, rfl⟩
  | enforcing now mono =>
    cases h
    exact .inr (.inl ⟨now, mono, rfl, rfl⟩)
  | polling todo | closing todo =>
    refine .inr (.inr ⟨by simp, by simp, ?_⟩)
    cases todo with
    | nil =>
      cases h
      simp
    | cons x xs =>
      simp only [loopNext] at h
      split at h <;> cases h
      simp
  | enforced | sent | signal =>
    refine .inr (.inr ⟨by simp, by simp, ?_⟩)
    simp only [loopNext] at h
    split at h <;> cases h <;> simp
  | signalled todo a =>
    refine .inr (.inr ⟨by simp, by simp, ?_⟩)
    simp only [loopNext] at h
    split at h
    · cases h
      simp
    · split at h <;> cases h <;> simp
  | polled | expire | expiring | prune | collect | list | listed | finalize | stopped =>
    cases h
    exact .inr (.inr ⟨by simp, by simp, by simp⟩)

theorem step_advance (h : step cfg s act = some t) : Advance s act t := by
  rcases step_clock h with ⟨hclock, htick⟩ | rfl
  · rcases step_loop h with ⟨hloop, hrun⟩ | ⟨r, m, k, rfl, hshared, hnext⟩
    · exact .other htick hrun hloop hclock
    · rcases loopNext_enforcing hnext with ⟨hst, hst'⟩ | ⟨now, mono, hst, hst'⟩ | ⟨hidle, hne, hne'⟩
      · exact .start hst hst' hclock
      · exact .enforce hst hst' hclock
      · exact .run hidle hne hne' hclock
  · rcases step_loop h with ⟨hloop, -⟩ | ⟨r, _, _, hr, -, -⟩
    · exact .tick rfl hloop
    · cases hr

-- ---------------------------------------------------------------------------
-- How far apart two enforcements are
-- ---------------------------------------------------------------------------

/-- The calls of one iteration take no longer than `b` together. -/
def Brisk (b : Int) (s : Timed) : Action → Prop
  | .tick c => s.state.loop.timeout.isSome = true → s.spent + (c.mono - s.now) ≤ b
  | _ => True

instance (b : Int) (s : Timed) : DecidablePred (Brisk b s)
  | .tick c => inferInstanceAs (Decidable
      (s.state.loop.timeout.isSome = true → s.spent + (c.mono - s.now) ≤ b))
  | .admitStart .. | .admitStep .. | .attachStart .. | .attach .. | .run .. | .exit .. | .fork ..
  | .collect .. => isTrue trivial

structure Tempo (b : Int) (s : Timed) : Prop where
  phase : s.phase ≤ s.last
  last : s.last ≤ s.now
  due : s.due ≤ s.last + second
  nonneg : 0 ≤ s.spent
  spent : s.spent ≤ b
  idle : s.state.loop = .idle → s.now ≤ s.last + max b second
  enforcing : ∀ now mono, s.state.loop = .enforcing now mono →
    s.state.clock = ⟨now, mono⟩ ∧ s.now ≤ s.last + max b second
  busy : s.state.loop ≠ .idle → (∀ now mono, s.state.loop ≠ .enforcing now mono) →
    s.now = s.last + s.spent

theorem nextTick_le (phase now : Int) : nextTick phase now ≤ now + second := by
  simp only [nextTick, second]
  omega

theorem Tempo.now_le (h : Tempo b s) : s.now ≤ s.last + max b second := by
  by_cases hidle : s.state.loop = .idle
  · exact h.idle hidle
  · by_cases hne : ∀ now mono, s.state.loop ≠ .enforcing now mono
    · have hspent := h.spent
      have hnow := h.busy hidle hne
      omega
    · push Not at hne
      obtain ⟨now, mono, hst⟩ := hne
      exact (h.enforcing now mono hst).2

theorem Tempo.fresh (h : s.Fresh) (hidle : s.state.loop = .idle) (hb : 0 ≤ b) : Tempo b s where
  phase := (h.phase.trans h.last.symm).le
  last := h.last.le
  due := by rw [h.due, h.last]
  nonneg := h.spent.ge
  spent := h.spent.trans_le hb
  idle _ := by
    have hlast := h.last
    simp only [second]
    omega
  enforcing now mono hst := by rw [hidle] at hst; cases hst
  busy hne := absurd hidle hne

section
variable {s : Timed} {t : State}

theorem Timed.limit_idle (h : s.state.loop = .idle) : s.limit = max s.now s.due := by
  simp only [Timed.limit, h]

theorem Timed.limit_now (h : s.state.loop ≠ .idle) (ht : s.state.loop.timeout = none) :
    s.limit = s.now := by
  unfold Timed.limit
  split
  · rename_i hidle
    exact absurd hidle h
  · simp only [ht]

theorem Timed.after_run (h : ∀ now mono, s.state.loop ≠ .enforcing now mono) (r : Reading)
    (t : State) : s.after (.run r) t = { s with state := t, began := s.now } := by
  simp only [Timed.after]

theorem Timed.after_other (ht : ∀ c, act ≠ .tick c) (hr : ∀ r, act ≠ .run r) (s : Timed)
    (t : State) : s.after act t = { s with state := t } := by
  cases act with
  | tick c => exact absurd rfl (ht c)
  | run r => exact absurd rfl (hr r)
  | admitStart | admitStep | attachStart | attach | exit | fork | collect => rfl

theorem Tempo.tick (h : Tempo b s) (hp : Paced s (.tick c)) (hb : Brisk b s (.tick c))
    (hclock : t.clock = c) (hloop : t.loop = s.state.loop) : Tempo b (s.after (.tick c) t) := by
  obtain ⟨hback, hlimit, -, hsame⟩ := hp
  have hnow : (s.after (.tick c) t).now = c.mono := by rw [← hclock]; rfl
  have hlast := h.last
  have hdue := h.due
  have hspent := h.spent
  have hnonneg := h.nonneg
  -- Where no time passes, the clock stays as it is.
  have hstill (hidle : s.state.loop ≠ .idle) (ht : s.state.loop.timeout = none) :
      c = s.state.clock := by
    rw [Timed.limit_now hidle ht] at hlimit
    exact hsame (by omega)
  have hcall : (s.after (.tick c) t).spent =
      if s.state.loop.timeout.isSome then s.spent + (c.mono - s.now) else s.spent := rfl
  refine ⟨h.phase, hlast.trans (hnow ▸ hback), hdue, ?_, ?_, ?_, ?_, ?_⟩
  · rw [hcall]
    split <;> omega
  · rw [hcall]
    split
    · rename_i ht
      exact hb ht
    · exact hspent
  · intro hst
    have hidle : s.state.loop = .idle := hloop ▸ hst
    have hlow := h.idle hidle
    rw [Timed.limit_idle hidle] at hlimit
    rw [hnow]
    show c.mono ≤ s.last + max b second
    omega
  · intro now mono hst
    have hst' : s.state.loop = .enforcing now mono := hloop ▸ hst
    have hc := hstill (by rw [hst']; simp) (by rw [hst']; rfl)
    obtain ⟨hclk, hle⟩ := h.enforcing now mono hst'
    refine ⟨hclock.trans (hc.trans hclk), ?_⟩
    rw [hnow, hc]
    exact hle
  · intro hidle hne
    have hidle' : s.state.loop ≠ .idle := hloop ▸ hidle
    have hbusy := h.busy hidle' (hloop ▸ hne)
    rw [hnow, hcall]
    show c.mono = s.last + _
    split
    · omega
    · rename_i ht
      rw [hstill hidle' (by simpa using ht)]
      exact hbusy

theorem Tempo.after (h : Tempo b s) (hadv : Advance s.state act t) (hp : Paced s act)
    (hb : Brisk b s act) (hpos : 0 ≤ b) : Tempo b (s.after act t) := by
  cases hadv with
  | tick hclock hloop => exact h.tick hp hb hclock hloop
  | start hst hst' hclock =>
    have hne : ∀ now mono, s.state.loop ≠ .enforcing now mono := by rw [hst]; simp
    have hnow : t.clock.mono = s.now := by rw [hclock]; rfl
    rw [Timed.after_run hne]
    refine ⟨h.phase, hnow ▸ h.last, h.due, h.nonneg, h.spent, ?_, ?_, ?_⟩
    · intro hidle
      cases hst'.symm.trans hidle
    · intro now mono heq
      cases hst'.symm.trans heq
      exact ⟨hclock, hnow ▸ h.idle hst⟩
    · intro _ hno
      exact absurd hst' (hno _ _)
  | @enforce _ _ r _ hst hst' hclock =>
    have hnow : t.clock.mono = s.now := by rw [hclock]; rfl
    have hafter : s.after (.run r) t = { s with
        state := t, due := nextTick s.phase s.now, last := s.now, began := s.now, spent := 0 } := by
      simp only [Timed.after, hst]
    rw [hafter]
    refine ⟨h.phase.trans h.last, hnow.ge, nextTick_le .., le_refl 0, hpos, ?_, ?_, ?_⟩
    · intro hidle
      cases hst'.symm.trans hidle
    · intro now mono heq
      cases hst'.symm.trans heq
    · intro _ _
      show t.clock.mono = s.now + 0
      omega
  | run hidle hne hne' hclock =>
    have hnow : t.clock.mono = s.now := by rw [hclock]; rfl
    have hbusy := h.busy hidle hne
    have hspent := h.spent
    rw [Timed.after_run hne]
    refine ⟨h.phase, hnow ▸ h.last, h.due, h.nonneg, hspent, ?_, ?_, ?_⟩
    · intro _
      show t.clock.mono ≤ s.last + max b second
      omega
    · intro now mono heq
      exact absurd heq (hne' now mono)
    · intro _ _
      exact hnow.trans hbusy
  | other ht hr hloop hclock =>
    have hnow : t.clock.mono = s.now := by rw [hclock]; rfl
    rw [Timed.after_other ht hr]
    refine ⟨h.phase, h.last.trans hnow.ge, h.due, h.nonneg, h.spent, ?_, ?_, ?_⟩
    · intro hidle
      exact hnow.trans_le (h.idle (hloop ▸ hidle))
    · intro now mono heq
      obtain ⟨hclk, hle⟩ := h.enforcing now mono (hloop ▸ heq)
      exact ⟨hclock.trans hclk, hnow.trans_le hle⟩
    · intro hidle hne
      exact hnow.trans (h.busy (hloop ▸ hidle) (hloop ▸ hne))

end

-- ---------------------------------------------------------------------------
-- Overdue grants
-- ---------------------------------------------------------------------------

def Overdue (c : Clock) (g : Grant) : Prop :=
  (∃ d ∈ g.deadlineMono, d ≤ c.mono) ∨ g.deadline ≤ c.wall

instance (c : Clock) (g : Grant) : Decidable (Overdue c g) :=
  inferInstanceAs (Decidable (_ ∨ _))

/-- The deadlines of an overdue grant are set again only for an expiry that has
passed as well. -/
def KeepsOverdue (s : State) (act : Action) : Prop :=
  ∀ x ∈ resets s act, Overdue s.clock (s.shared.warden.heap x.addr) → x.expiresAt ≤ s.clock.wall

instance (s : State) (act : Action) : Decidable (KeepsOverdue s act) :=
  inferInstanceAs (Decidable (∀ x ∈ resets s act, _))

/-- Clocks and the signer's answers agree, however long calls take. -/
def Regular (s : Timed) (act : Action) : Prop := Paced s act ∧ KeepsOverdue s.state act

instance (s : Timed) (act : Action) : Decidable (Regular s act) :=
  inferInstanceAs (Decidable (_ ∧ _))

/-- And the calls of one iteration take two seconds together, at the most. -/
def Prompt (s : Timed) (act : Action) : Prop := Regular s act ∧ Brisk (2 * second) s act

instance (s : Timed) (act : Action) : Decidable (Prompt s act) :=
  inferInstanceAs (Decidable (_ ∧ _))

section
variable {cfg : Config} {s t u : Timed}

theorem timed_step (h : (timed cfg).step s act = some t) :
    step cfg s.state act = some t.state ∧ t = s.after act t.state := by
  obtain ⟨t', hstep, rfl⟩ := Option.map_eq_some_iff.mp h
  have hstate : (s.after act t').state = t' := by
    cases act <;> try rfl
    simp only [Timed.after]
    split <;> rfl
  rw [hstate]
  exact ⟨hstep, rfl⟩

theorem timed_reachable (h : (timed cfg).Reachable ok s) :
    (machine cfg).Reachable (fun _ _ => True) s.state := by
  refine h.invariant (I := fun s => (machine cfg).Reachable (fun _ _ => True) s.state) ?_ ?_
  · intro s hinit
    exact .of_init hinit.1
  · intro s act t hs _ hstep
    exact hs.step trivial (timed_step hstep).1

theorem Prompt.tempo (h : (timed cfg).Reachable Prompt s) : Tempo (2 * second) s := by
  refine h.invariant (I := fun s => Tempo (2 * second) s) ?_ ?_
  · intro s ⟨hinit, hfresh⟩
    exact .fresh hfresh hinit.loop (by decide)
  · intro s act t hs hok hstep
    obtain ⟨hbase, ht⟩ := timed_step hstep
    rw [ht]
    exact hs.after (step_advance hbase) hok.1.1 hok.2 (by decide)

theorem Moves.overdue {s : State} (h : Moves cfg s act a g) (hk : KeepsOverdue s act)
    (ho : Overdue s.clock (s.shared.warden.heap a)) : Overdue s.clock g := by
  cases h with
  | @retrack i job now _ r hst haddr hopen =>
    have hx : resets s (.attach i r) = some ⟨a, job.info.expiresAt, now⟩ := by
      simp [resets, hst, haddr, hopen]
    exact .inr (hk _ hx ho)
  | @shorten _ info _ r _ hst haddr hopen hrev hwall hless =>
    have hx : resets s (.run r) = some ⟨a, info.expiresAt, s.clock.wall⟩ := by
      simp [resets, hst, haddr, hopen, hrev, hwall, hless]
    exact .inr (hk _ hx ho)
  | same | close | attach | prune | term | remaining | closed => exact ho

theorem Overdue.later (h : Overdue c g) (hm : c.mono ≤ c'.mono) (hw : c.wall ≤ c'.wall) :
    Overdue c' g := by
  rcases h with ⟨d, hd, hle⟩ | hle
  · exact .inl ⟨d, hd, hle.trans hm⟩
  · exact .inr (Int64.le_trans hle hw)

theorem overdue_step (hs : (timed cfg).Reachable Prompt s) (hok : Prompt s act)
    (hstep : (timed cfg).step s act = some t) (ha : a < s.state.shared.warden.next)
    (hd : Overdue s.state.clock (s.state.shared.warden.heap a))
    (hopen : (t.state.shared.warden.heap a).state = .opened) :
    Overdue t.state.clock (t.state.shared.warden.heap a) ∧ t.last = s.last := by
  obtain ⟨hbase, ht⟩ := timed_step hstep
  have hsec := step_section cfg hbase
  have hmoves := hsec.moves cfg ha
  have hover := hmoves.overdue hok.1.2 hd
  cases step_advance hbase with
  | tick hclock _ =>
    obtain ⟨hback, -, hwall, -⟩ := hok.1.1
    subst hclock
    exact ⟨hover.later hback hwall, by rw [ht]; rfl⟩
  | start hst _ hclock =>
    rw [hclock]
    refine ⟨hover, ?_⟩
    rw [ht, Timed.after_run (by rw [hst]; simp)]
  | enforce hst _ hclock =>
    -- The reading that is compared with the deadlines is the present one.
    have hread := ((Prompt.tempo hs).enforcing _ _ hst).1
    have hbefore := hmoves.opened hopen
    have hmapped := (Inv.reachable (timed_reachable hs)).objects.unmapped a ha (by simp [hbefore])
    rw [hread] at hd
    simp only [step, hst, loopNext, Option.some.injEq] at hbase
    rw [← hbase] at hopen
    exact absurd hopen (enforceDeadlines_closes hmapped hd)
  | run _ hne _ hclock =>
    rw [hclock]
    refine ⟨hover, ?_⟩
    rw [ht, Timed.after_run hne]
  | other htick hrun _ hclock =>
    rw [hclock]
    refine ⟨hover, ?_⟩
    rw [ht, Timed.after_other htick hrun]

/-- In every run whose clocks and answers agree and in which the calls of one
iteration take two seconds at the most, a grant that is Open with a deadline
passed is not Open two seconds later. -/
theorem overdue_closes (hs : (timed cfg).Reachable Prompt s) (hrun : (timed cfg).Run Prompt s t)
    (ha : a < s.state.shared.warden.next)
    (hd : Overdue s.state.clock (s.state.shared.warden.heap a))
    (hlate : s.now + 2 * second < t.now) : (t.state.shared.warden.heap a).state ≠ .opened := by
  have hwatch : a < t.state.shared.warden.next ∧
      ((t.state.shared.warden.heap a).state = .opened →
        Overdue t.state.clock (t.state.shared.warden.heap a) ∧ t.last = s.last) := by
    clear hlate
    induction hrun with
    | refl => exact ⟨ha, fun _ => ⟨hd, rfl⟩⟩
    | step hrun' hok hstep ih =>
      obtain ⟨hlt, hopen⟩ := ih
      have hsec := step_section cfg (timed_step hstep).1
      refine ⟨hlt.trans_le hsec.map.next_le, fun ho => ?_⟩
      have hbefore := (hsec.moves cfg hlt).opened ho
      obtain ⟨hover, hlast⟩ := hopen hbefore
      obtain ⟨hover', hlast'⟩ := overdue_step (hs.run hrun') hok hstep hlt hover ho
      exact ⟨hover', hlast'.trans hlast⟩
  intro hopen
  obtain ⟨-, hlast⟩ := hwatch.2 hopen
  have hle := (Prompt.tempo (hs.run hrun)).now_le
  have hstart := (Prompt.tempo hs).last
  simp only [second] at hle hlate
  omega

end

namespace Sample

def started : Timed := ⟨initial, 0, second, 0, 0, 0⟩

theorem started_reachable : (timed config).Reachable ok started := by
  refine .of_init ⟨⟨rfl, nofun, nofun, ?_, rfl, fun _ => rfl, fun _ => rfl, rfl, rfl⟩,
    ⟨rfl, rfl, rfl, rfl, rfl⟩⟩
  exact fun _ h => absurd rfl h

/-- The grant expires at 1003, three seconds after the connection. -/
def brief : Reading := { reading 4242 with answer := .ok { info with expiresAt := 1003 } }

def briefly : List Action :=
  .admitStart 0 (admitCall 4242) :: List.replicate 5 (.admitStep 0 brief) ++
    .attachStart 0 (attachCall 4242) :: List.replicate 11 (.attach 0 brief)

def iteration (wall : Int64) (seconds : Int) (n : Nat) : List Action :=
  .tick ⟨wall, seconds * second⟩ :: List.replicate n (.run brief)

end Sample

/-- With quick answers the grant is overdue at 3 s, and not Open at 6 s. -/
theorem overdue_closes_brief : ∃ s t, (timed Sample.config).Reachable Prompt s ∧
    (timed Sample.config).Run Prompt s t ∧ s.now = 3 * second ∧ t.now = 6 * second ∧
    (s.state.shared.warden.heap 0).state = .opened ∧
    Overdue s.state.clock (s.state.shared.warden.heap 0) ∧
    (t.state.shared.warden.heap 0).state ≠ .opened := by
  have hexec : ((timed Sample.config).exec Prompt Sample.started (Sample.briefly ++
      Sample.iteration 1001 1 11 ++ Sample.iteration 1002 2 8 ++ Sample.iteration 1003 3 0)).any
      (fun s => decide (0 < s.state.shared.warden.next) && s.now == 3 * second &&
        (s.state.shared.warden.heap 0).state == .opened &&
        decide (Overdue s.state.clock (s.state.shared.warden.heap 0)) &&
        ((timed Sample.config).exec Prompt s (List.replicate 15 (.run Sample.brief) ++
          Sample.iteration 1004 4 14 ++ Sample.iteration 1005 5 15 ++
          Sample.iteration 1006 6 0)).any fun t => t.now == 6 * second) = true := by
    decide +kernel
  obtain ⟨s, hs, hprop⟩ := Option.any_eq_true .. |>.mp hexec
  simp only [Bool.and_eq_true, beq_iff_eq, decide_eq_true_eq] at hprop
  obtain ⟨⟨⟨⟨hnext, hnow⟩, hopen⟩, hd⟩, htail⟩ := hprop
  obtain ⟨t, ht, hlater⟩ := Option.any_eq_true .. |>.mp htail
  have hthen := beq_iff_eq.mp hlater
  have hreach : (timed Sample.config).Reachable Prompt s :=
    Sample.started_reachable.run (.of_exec hs)
  refine ⟨s, t, hreach, .of_exec ht, hnow, hthen, hopen, hd, ?_⟩
  exact overdue_closes hreach (.of_exec ht) hnext hd (by rw [hnow, hthen]; decide)

/-- One query that takes its five seconds keeps the grant Open: it is overdue
at 3 s, while the loop waits for the answer, and still Open at 6 s. -/
theorem slow_signer_keeps_open : ∃ s t, (timed Sample.config).Reachable Regular s ∧
    (timed Sample.config).Run Regular s t ∧
    Overdue s.state.clock (s.state.shared.warden.heap 0) ∧ s.now + 2 * second < t.now ∧
    (t.state.shared.warden.heap 0).state = .opened := by
  have hexec : ((timed Sample.config).exec Regular Sample.started (Sample.briefly ++
      Sample.iteration 1001 1 3 ++ Sample.iteration 1003 3 0)).any
      (fun s => decide (Overdue s.state.clock (s.state.shared.warden.heap 0)) &&
        ((timed Sample.config).exec Regular s (Sample.iteration 1006 6 0)).any fun t =>
          decide (s.now + 2 * second < t.now) &&
            (t.state.shared.warden.heap 0).state == .opened) = true := by
    decide +kernel
  obtain ⟨s, hs, hprop⟩ := Option.any_eq_true .. |>.mp hexec
  simp only [Bool.and_eq_true, decide_eq_true_eq] at hprop
  obtain ⟨hd, htail⟩ := hprop
  obtain ⟨t, ht, hprop⟩ := Option.any_eq_true .. |>.mp htail
  simp only [Bool.and_eq_true, decide_eq_true_eq, beq_iff_eq] at hprop
  exact ⟨s, t, Sample.started_reachable.run (.of_exec hs), .of_exec ht, hd, hprop⟩

end Grantd.Warden
