import Grantd.Warden.Reaping

/-!
# Termination is honest and bounded

What happens to a Closed grant, and the results on termination.
-/

namespace Grantd.Warden

open Base

structure Kept (s : Watch) (a : Nat) : Prop where
  past : (s.warden.heap a).closingSince ≤ s.now
  removed : s.warden.mapped a = false →
    (s.warden.heap a).closingSince + 30 * second < s.now
  mapped : s.warden.mapped a = true → s.now ≤ (s.warden.heap a).closingSince + 31 * second
  waiting : s.warden.mapped a = true → s.state.loop.waits = true →
    s.timed.last ≤ (s.warden.heap a).closingSince + 30 * second

section
variable {cfg : Config} {s u : Watch} {v : State}

theorem step_mapped {s t : State} (h : step cfg s act = some t) (hrun : ∀ r, act ≠ .run r)
    (ha : a < s.shared.warden.next) :
    t.shared.warden.mapped a = s.shared.warden.mapped a := by
  have hsec := step_section cfg h
  generalize t.shared.warden = w at hsec ⊢
  cases hsec with
  | none | take => rfl
  | record hst hw =>
    obtain ⟨-, rfl⟩ := recordPending_eq_ok hw
    rfl
  | track hst hw =>
    obtain ⟨haddr, hopen, rfl⟩ | ⟨hnone, -, rfl⟩ := track_eq_ok hw
    · rfl
    · rw [Bool.eq_iff_iff, mapped_iff, mapped_iff]
      constructor
      · rintro ⟨e, he, rfl⟩
        rcases List.mem_append.mp he with he | he
        · exact ⟨e, (List.mem_filter.mp he).1, rfl⟩
        · cases List.mem_singleton.mp he
          exact absurd ha (Nat.lt_irrefl _)
      · rintro ⟨e, he, rfl⟩
        have hne : e.id ≠ _ := fun heq => by
          have hsome : s.shared.warden.addr? e.id = some e.addr := addr?_eq_some.mpr he
          rw [heq, hnone] at hsome
          cases hsome
        exact ⟨e, List.mem_append_left _ (List.mem_filter.mpr ⟨he, by simpa using hne⟩), rfl⟩
  | attach hst hw =>
    obtain ⟨hopen, rfl⟩ := attachSession_eq_ok hw
    rfl
  | enforce | poll | expire | prune | term | remaining | close | forget =>
    exact absurd rfl (hrun _)

theorem Kept.other (h : Kept s a) (hrun : ∀ r, act ≠ .run r) (hT : Tempo 0 s.timed)
    (hok : Ticking s act) (hloop : v.loop = s.state.loop)
    (hclock : v.clock = s.state.clock ∨ act = .tick v.clock)
    (hsince : (v.shared.warden.heap a).closingSince = (s.warden.heap a).closingSince)
    (hmapped : v.shared.warden.mapped a = s.warden.mapped a) : Kept (s.after cfg act none v) a := by
  have hlast : (s.after cfg act none v).timed.last = s.timed.last := by
    cases act with
    | run r => exact absurd rfl (hrun r)
    | tick | admitStart | admitStep | attachStart | attach | exit | fork | collect => rfl
  have hback : s.now ≤ (s.after cfg act none v).now := by
    rw [Watch.after_now]
    rcases hclock with hclock | rfl
    · rw [hclock]
      exact le_refl _
    · exact hok.1.1
  refine ⟨?_, ?_, ?_, ?_⟩
  · rw [Watch.warden, Watch.after_state, hsince]
    exact h.past.trans hback
  · rw [Watch.warden, Watch.after_state, hsince, hmapped]
    exact fun hm => (h.removed hm).trans_le hback
  · rw [Watch.warden, Watch.after_state, hsince, hmapped]
    intro hm
    have hle := h.mapped hm
    rw [Watch.after_now]
    rcases hclock with hclock | rfl
    · rw [hclock]
      exact hle
    · by_cases hidle : s.state.loop = .idle
      · have hlimit : v.clock.mono ≤ max s.now s.timed.due := Timed.limit_idle hidle ▸ hok.1.2.1
        have hdue := hT.due
        have hwait := h.waiting hm (by rw [hidle]; rfl)
        simp only [second] at hle hwait hdue ⊢
        omega
      · rw [hok.still hT hidle]
        exact hle
  · rw [Watch.warden, Watch.after_state, hsince, hmapped, hloop, hlast]
    exact h.waiting

theorem Kept.new (hsince : (u.warden.heap a).closingSince = u.now)
    (hm : u.warden.mapped a = true) (hw : u.state.loop.waits = false) : Kept u a := by
  refine ⟨hsince.le, ?_, fun _ => ?_, ?_⟩
  · rw [hm]
    simp
  · rw [hsince]
    simp only [second]
    omega
  · rw [hw]
    simp

theorem Kept.run (h : Kept s a) (hclock : v.clock = s.state.clock)
    (hsince : (v.shared.warden.heap a).closingSince = (s.warden.heap a).closingSince)
    (hmapped : v.shared.warden.grants = s.warden.grants)
    (hwaits : v.loop.waits = true → s.state.loop = .idle) :
    Kept (s.after cfg (.run r) k v) a := by
  have hm : v.shared.warden.mapped a = s.warden.mapped a := by
    unfold Warden.mapped
    rw [hmapped]
  have hnow : (s.after cfg (.run r) k v).now = s.now := by
    rw [Watch.after_now, hclock]
    rfl
  refine ⟨?_, ?_, ?_, ?_⟩
  · rw [Watch.warden, Watch.after_state, hsince, hnow]
    exact h.past
  · rw [Watch.warden, Watch.after_state, hsince, hm, hnow]
    exact h.removed
  · rw [Watch.warden, Watch.after_state, hsince, hm, hnow]
    exact h.mapped
  · rw [Watch.warden, Watch.after_state, hsince, hm]
    intro hm' hw
    have hidle := hwaits hw
    have htimed : (s.after cfg (.run r) k v).timed = s.timed.after (.run r) v := rfl
    rw [htimed, Timed.after_run (by rw [hidle]; simp)]
    exact h.waiting hm' (by rw [hidle]; rfl)

theorem forget_mapped (w : Warden) (now : Int) (a : Nat) :
    (w.forget now).mapped a = true ↔ w.mapped a = true ∧
      ¬((w.heap a).state = .closed ∧ 30 * second < now - (w.heap a).closingSince) := by
  rw [mapped_iff, mapped_iff]
  constructor
  · rintro ⟨e, he, rfl⟩
    obtain ⟨hmem, hp⟩ := List.mem_filter.mp he
    exact ⟨⟨e, hmem, rfl⟩, by simpa [imp_iff_not_or] using hp⟩
  · rintro ⟨⟨e, hmem, rfl⟩, hp⟩
    exact ⟨e, List.mem_filter.mpr ⟨hmem, by simpa [imp_iff_not_or] using hp⟩, rfl⟩

theorem Kept.finish (h : Kept s a) (hT : Tempo 0 s.timed) (hclock : v.clock = s.state.clock)
    (hst : s.state.loop = .closing []) (hc : (s.warden.heap a).state = .closed)
    (hw : v.shared.warden = s.warden.forget s.now) : Kept (s.after cfg (.run r) k v) a := by
  have hnow : (s.after cfg (.run r) k v).now = s.now := by
    rw [Watch.after_now, hclock]
    rfl
  have hlast : (s.after cfg (.run r) k v).timed.last = s.now := by
    have htimed : (s.after cfg (.run r) k v).timed = s.timed.after (.run r) v := rfl
    rw [htimed, Timed.after_run (by rw [hst]; simp)]
    exact hT.last_eq (by rw [hst]; simp) (by rw [hst]; simp)
  have hheap : (s.after cfg (.run r) k v).warden.heap a = s.warden.heap a := by
    rw [Watch.warden, Watch.after_state, hw]
    rfl
  have hmapped : (s.after cfg (.run r) k v).warden.mapped a = true ↔ s.warden.mapped a = true ∧
      s.now ≤ (s.warden.heap a).closingSince + 30 * second := by
    rw [Watch.warden, Watch.after_state, hw, forget_mapped]
    simp only [hc, true_and, second]
    constructor <;> rintro ⟨hm, hle⟩ <;> exact ⟨hm, by omega⟩
  refine ⟨?_, ?_, ?_, ?_⟩
  · rw [hheap, hnow]
    exact h.past
  · intro hm
    rw [hheap, hnow]
    by_contra hle
    have := hmapped.not.mp (by rw [hm]; simp)
    rw [not_and] at this
    cases hs : s.warden.mapped a with
    | true => exact this hs (by omega)
    | false => exact hle (h.removed hs)
  · intro hm
    rw [hheap, hnow]
    exact h.mapped (hmapped.mp hm).1
  · intro hm _
    rw [hheap, hlast]
    exact (hmapped.mp hm).2

theorem PassMove.since (hm : PassMove cfg s.state r v k) (hI : Inv s.state)
    (hc : (s.warden.heap a).state = .closed) :
    (v.shared.warden.heap a).closingSince = (s.warden.heap a).closingSince := by
  have hturns (h : Turns (s.warden.heap a) (v.shared.warden.heap a)) :
      (v.shared.warden.heap a).closingSince = (s.warden.heap a).closingSince := by
    cases h with
    | same _ _ hsince => exact hsince
    | close hopen => cases hopen.symm.trans hc
  -- What the loop has in hand is Closing.
  have hother {b : Nat} (hmem : b ∈ s.state.loop.addrs) : a ≠ b := by
    rintro rfl
    cases (hI.terminating a hmem).2.symm.trans hc
  cases hm with
  | early _ _ _ ht _ _ => exact hturns (ht a)
  | begin hst hpick _ hsh =>
    have hab := hother (by rw [hst]; exact List.mem_of_getElem? hpick)
    rw [hsh]
    simp only [beginTerm, heap_write, if_neg hab]
  | listed _ _ hsh =>
    refine hturns ?_
    rw [hsh]
    exact setRemaining_turns _ _ _ a
  | close hst _ hsh =>
    have hab := hother (by rw [hst]; exact List.mem_cons_self)
    rw [hsh]
    simp only [markClosed, heap_write, if_neg hab]
  | finish _ _ hsh =>
    rw [hsh]
    rfl
  | start _ _ hsh | collect _ _ hsh | signal _ _ hsh _ | list _ _ hsh | stop _ _ hsh => rw [hsh]
  | absent _ _ _ hsh | present _ _ _ hsh | unread _ _ _ hsh => rw [hsh]
  | empty _ _ _ _ hsh | populated _ _ _ _ hsh => rw [hsh]

/-- The map loses objects at the end of an iteration, where the loop goes back to
its wait. -/
theorem PassMove.grants (hm : PassMove cfg s.state r v k) :
    v.shared.warden.grants = s.warden.grants ∧
      (v.loop.waits = true → s.state.loop = .idle) ∨
    s.state.loop = .closing [] ∧ v.shared.warden = s.warden.forget s.now := by
  cases hm with
  | early _ hst' hne _ hgrants _ =>
    refine .inl ⟨hgrants, fun hw => ?_⟩
    rw [(early_place (a := 0) hst' hne).2.1] at hw
    cases hw
  | finish hst _ hsh => exact .inr ⟨hst, by rw [hsh]; rfl⟩
  | start hst _ hsh => exact .inl ⟨by rw [hsh], fun _ => hst⟩
  | collect _ hst' hsh | signal _ hst' hsh _ | list _ hst' hsh | stop _ hst' hsh =>
    exact .inl ⟨by rw [hsh], by rw [hst']; simp [LoopState.waits]⟩
  | listed _ hst' hsh | close _ hst' hsh =>
    exact .inl ⟨by rw [hsh]; rfl, by rw [hst']; simp [LoopState.waits]⟩
  | begin _ _ hst' hsh => exact .inl ⟨by rw [hsh]; rfl, by rw [hst']; simp [LoopState.waits]⟩
  | absent _ _ hst' hsh | present _ _ hst' hsh | unread _ _ hst' hsh =>
    exact .inl ⟨by rw [hsh], by rw [hst']; simp [LoopState.waits]⟩
  | empty _ _ _ hst' hsh | populated _ _ _ hst' hsh =>
    exact .inl ⟨by rw [hsh], by rw [hst']; simp [LoopState.waits]⟩

theorem PassMove.closing (hm : PassMove cfg s.state r v k) (hst : s.state.loop = .stopped todo a) :
    v.loop = .closing todo ∧ v.shared = { s.state.shared with
      warden := s.warden.markClosed s.now a } := by
  cases hm with
  | close hst' hv hsh =>
    cases hst.symm.trans hst'
    exact ⟨hv, hsh⟩
  | early he => rw [hst] at he; cases he
  | start h | collect h | finish h | begin h | absent h | present h | signal h | unread h | empty h
  | populated h | list h | listed h | stop h => cases hst.symm.trans h

theorem PassMove.kept (hm : PassMove cfg s.state r v k)
    (hmoves : Moves cfg s.state (.run r) a (v.shared.warden.heap a))
    (h : (s.warden.heap a).state = .closed → Kept s a) (hI : Inv s.state)
    (hT : Tempo 0 s.timed) (hclock : v.clock = s.state.clock)
    (hc : (v.shared.warden.heap a).state = .closed) : Kept (s.after cfg (.run r) k v) a := by
  rcases hmoves.closed_cases hc with hold | ⟨todo, -, hst, -⟩
  · rcases hm.grants with ⟨hgrants, hwaits⟩ | ⟨hst, hw⟩
    · exact (h hold).run hclock (hm.since hI hold) hgrants hwaits
    · exact (h hold).finish hT hclock hst hold hw
  · obtain ⟨hv, hsh⟩ := hm.closing hst
    obtain ⟨hlt, hclosing⟩ := hI.terminating a (by rw [hst]; exact List.mem_cons_self)
    refine .new ?_ ?_ ?_
    · rw [Watch.after_now, Watch.warden, Watch.after_state, hsh, hclock]
      simp only [markClosed, heap_write, if_true]
      rfl
    · rw [Watch.warden, Watch.after_state, hsh]
      exact hI.objects.unmapped a hlt (by rw [hclosing]; simp)
    · rw [Watch.after_state, hv]
      rfl

theorem Kept.step (h : ∀ a < s.warden.next, (s.warden.heap a).state = .closed → Kept s a)
    (hI : Inv s.state) (hT : Tempo 0 s.timed) (hok : Ticking s act)
    (hstep : (reaping cfg).step s act = some u) :
    ∀ a < u.warden.next, (u.warden.heap a).state = .closed → Kept u a := by
  obtain ⟨t, k, hbase, hu, heq⟩ := reaping_step hstep
  obtain ⟨hw, hl, hclk, -⟩ := linger_warden hu hbase
  have hwarden : u.warden = t.shared.warden := hw
  have hsec := step_section cfg hbase
  intro a ha hc
  rw [hwarden] at ha hc
  have hlt : a < s.warden.next := by
    rcases hsec.map.lt_cases ha with hlt | ⟨-, _, _, _, _, hheap⟩
    · exact hlt
    · rw [hheap] at hc
      cases hc
  have hmoves := hsec.moves cfg hlt
  rw [heq]
  rcases step_loop hbase with ⟨hloop, hrun⟩ | ⟨r, _, _, rfl, -, -⟩
  · obtain ⟨hstate, -, hsince⟩ := step_record hbase hrun hlt
    obtain ⟨-, rfl⟩ := linger_other hrun hu
    refine (h a hlt (hstate.symm.trans hc)).other hrun hT hok (by rw [hl, hloop]) ?_
      (by rw [hw, hsince]) (by rw [hw, step_mapped hbase hrun hlt])
    rw [hclk]
    rcases step_clock hbase with ⟨hclock, -⟩ | heq
    · exact .inl hclock
    · exact .inr heq
  · have hclock : u.state.clock = s.state.clock := by
      rw [hclk]
      rcases step_clock hbase with ⟨hclock, -⟩ | hr
      · exact hclock
      · cases hr
    rw [← hwarden] at hc hmoves
    exact (linger_passMove hu).kept hmoves (h a hlt) hI hT hclock hc

theorem Kept.reachable (hs : (reaping cfg).Reachable Ticking s) (ha : a < s.warden.next)
    (hc : (s.warden.heap a).state = .closed) : Kept s a := by
  refine hs.induction (I := fun s => ∀ a < s.warden.next, (s.warden.heap a).state = .closed →
    Kept s a) ?_ ?_ a ha hc
  · rintro s ⟨hinit, -⟩ a ha hc
    rcases (hinit.objects a ha).2 with ⟨hopen, -⟩ | hclosing
    · cases hopen.symm.trans hc
    · cases hclosing.symm.trans hc
  · intro s act u hreach h hok hstep
    exact Kept.step h (reaping_inv hreach) (Ticking.tempo hreach) hok hstep

theorem closed_run (hs : (reaping cfg).Reachable ok s) (hrun : (reaping cfg).Run ok s u)
    (ha : a < s.warden.next) (hc : (s.warden.heap a).state = .closed) :
    a < u.warden.next ∧ (u.warden.heap a).state = .closed ∧
      (u.warden.heap a).closingSince = (s.warden.heap a).closingSince := by
  induction hrun with
  | refl => exact ⟨ha, hc, rfl⟩
  | @step t w act hrun' _ hstep ih =>
    obtain ⟨hlt, hclosed, hsince⟩ := ih
    obtain ⟨t', k, hbase, hu, -⟩ := reaping_step hstep
    have hwarden : w.warden = t'.shared.warden := (linger_warden hu hbase).1
    have hsec : Section cfg t.state act w.warden := hwarden ▸ step_section cfg hbase
    refine ⟨hlt.trans_le hsec.map.next_le, (hsec.moves cfg hlt).closed_stays hclosed, ?_⟩
    rw [← hsince]
    rcases step_loop hbase with ⟨-, hact⟩ | ⟨r, _, _, rfl, -, -⟩
    · rw [hwarden]
      exact (step_record hbase hact hlt).2.2
    · exact (linger_passMove hu).since (reaping_inv (hs.run hrun')) hclosed

theorem closed_by_pass (hs : (reaping cfg).Reachable Ticking s)
    (hstep : (reaping cfg).step s act = some u) (ha : a < s.warden.next)
    (hlive : (s.warden.heap a).state ≠ .closed) (hc : (u.warden.heap a).state = .closed) :
    (∃ p, u.passes = s.passes ++ [p] ∧ p.addr = a ∧ p.now = u.now ∧ p.closed = true) ∧
      (u.warden.heap a).closingSince = u.now := by
  obtain ⟨t, k, hbase, hu, heq⟩ := reaping_step hstep
  obtain ⟨hw, -, hclk, -⟩ := linger_warden hu hbase
  have hmoves : Moves cfg s.state act a (u.warden.heap a) := by
    rw [Watch.warden, hw]
    exact (step_section cfg hbase).moves cfg ha
  obtain ⟨todo, r, hst, rfl⟩ := (hmoves.closed_cases hc).resolve_left hlive
  obtain ⟨hv, hsh⟩ := (linger_passMove hu).closing hst
  have hnow : u.now = s.now := by
    have hclock : u.state.clock = s.state.clock := by
      rw [hclk]
      rcases step_clock hbase with ⟨hclock, -⟩ | hr
      · exact hclock
      · cases hr
    exact congrArg Clock.mono hclock
  obtain ⟨p, first, hp, haddr, hpnow, -, -, -⟩ :=
    (Filed.reachable hs).current a (by rw [hst]; rfl)
  refine ⟨⟨{ p with closed := true }, ?_, haddr, hpnow.trans hnow.symm, rfl⟩, ?_⟩
  · have hps := (Watch.after_waiting cfg (show u.state.loop.passing = none by rw [hv]; rfl) s r k).2
    rw [← heq] at hps
    rw [hps]
    simp only [Watch.note, hst, hp, Option.map_some, Option.toList_some]
  · rw [hnow, Watch.warden, hsh]
    simp only [markClosed, heap_write, if_true]

/-- Termination is honest: a pass sets a grant to Closed only if its cgroup was
absent or read as unpopulated, there is no other way to Closed, and among the
passes that find the cgroup exactly those write `cgroup.kill` that come after
the grace period. It is bounded: if doomed tasks are gone `K` after the first
`cgroup.kill` and no scope is started in the slice, the grant is Closed within
`TermGrace` + `K` + 3 s; and it leaves the map between 30 and 32 s later. -/
theorem termination_honest_bounded (cfg : Config) (hgrace : 0 ≤ cfg.termGrace) :
    (∀ s, (reaping cfg).Reachable Ticking s →
      (∀ p ∈ s.passes, (p.closed = true → p.present = false ∨ p.populated = some false) ∧
        (p.present = true → ∃ first, s.firstPass p.addr = some first ∧
          (p.killed = true ↔ first + cfg.termGrace ≤ p.now))) ∧
      ∀ act u a, Ticking s act → (reaping cfg).step s act = some u → a < s.warden.next →
        (s.warden.heap a).state ≠ .closed → (u.warden.heap a).state = .closed →
        (∃ p, u.passes = s.passes ++ [p] ∧ p.addr = a ∧ p.now = u.now ∧ p.closed = true) ∧
        ∀ t, (reaping cfg).Run Ticking u t →
          (t.warden.mapped a = true → t.now ≤ u.now + 32 * second) ∧
          (t.warden.mapped a = false → u.now + 30 * second < t.now)) ∧
    ∀ K a s t, (reaping cfg).Reachable (Dying cfg K a) s →
      (reaping cfg).Run (Dying cfg K a) s t → a < s.warden.next →
      (s.warden.heap a).state = .closing → s.now + cfg.termGrace + K + 3 * second < t.now →
      (t.warden.heap a).state = .closed := by
  refine ⟨fun s hs => ⟨fun p hp => ?_, fun act u a hok hstep ha hlive hc => ?_⟩,
    fun K a s t hs hrun ha hc hlate => closed_in_time hgrace hs hrun ha hc hlate⟩
  · obtain ⟨hclosed, hkilled⟩ := (Filed.reachable hs).passes p hp
    exact ⟨hclosed, hkilled⟩
  · obtain ⟨hpass, hsince⟩ := closed_by_pass hs hstep ha hlive hc
    refine ⟨hpass, fun t hrun => ?_⟩
    obtain ⟨t', k, hbase, hu, -⟩ := reaping_step hstep
    have hlt : a < u.warden.next := by
      rw [Watch.warden, (linger_warden hu hbase).1]
      exact ha.trans_le (step_section cfg hbase).map.next_le
    have hreach := hs.step hok hstep
    obtain ⟨hlt', hc', hkeep⟩ := closed_run hreach hrun hlt hc
    have hkept := Kept.reachable (hreach.run hrun) hlt' hc'
    have hremoved := hkept.removed
    have hmapped := hkept.mapped
    rw [hkeep, hsince] at hremoved hmapped
    refine ⟨fun hm => ?_, hremoved⟩
    have := hmapped hm
    simp only [second] at this ⊢
    omega

end

namespace Sample

def hasty : Config := { config with termGrace := second }

def watched : Watch := ⟨started, fun _ => [], fun _ => none, fun _ => none, none, []⟩

theorem watched_reachable : (reaping hasty).Reachable ok watched := by
  refine .of_init ⟨⟨rfl, nofun, nofun, ?_, rfl, fun _ => rfl, fun _ => rfl, rfl, rfl⟩, nofun,
    ⟨rfl, rfl, rfl, rfl, rfl⟩, rfl, rfl, rfl, rfl⟩
  exact fun _ h => absurd rfl h

def ending : List Action :=
  briefly ++ iteration 1001 1 11 ++ iteration 1002 2 8 ++ iteration 1003 3 15

def killing : List Action :=
  iteration 1004 4 14 ++ iteration 1005 5 0 ++ .exit (sliceUnit hasty grantID) 4242 ::
    List.replicate 15 (.run brief)

end Sample

/-- A task that lives through `SIGTERM` and a second of `cgroup.kill`. -/
theorem termination_honest_bounded_stubborn : ∃ s t,
    (reaping Sample.hasty).Reachable (Dying Sample.hasty 1000000000 0) s ∧
    (reaping Sample.hasty).Run (Dying Sample.hasty 1000000000 0) s t ∧
    (s.warden.heap 0).state = .closing ∧ s.tasks Sample.hasty 0 ≠ [] ∧
    t.firstKill 0 = some (4 * second) ∧ (t.warden.heap 0).state = .closed := by
  have hexec : ((reaping Sample.hasty).exec (Dying Sample.hasty 1000000000 0) Sample.watched
      Sample.ending).any (fun s => decide (0 < s.warden.next) && s.now == 3 * second &&
        (s.warden.heap 0).state == .closing && !(s.tasks Sample.hasty 0).isEmpty &&
        ((reaping Sample.hasty).exec (Dying Sample.hasty 1000000000 0) s (Sample.killing ++
          Sample.iteration 1006 6 8 ++ Sample.iteration 1007 7 9 ++ Sample.iteration 1008 8 8 ++
          Sample.iteration 1009 9 0)).any fun t =>
            t.firstKill 0 == some (4 * second) && t.now == 9 * second) = true := by
    decide +kernel
  obtain ⟨s, hs, hprop⟩ := Option.any_eq_true .. |>.mp hexec
  simp only [Bool.and_eq_true, beq_iff_eq, decide_eq_true_eq] at hprop
  obtain ⟨⟨⟨⟨hnext, hnow⟩, hclosing⟩, htasks⟩, htail⟩ := hprop
  obtain ⟨t, ht, hprop⟩ := Option.any_eq_true .. |>.mp htail
  simp only [Bool.and_eq_true, beq_iff_eq] at hprop
  obtain ⟨hkill, hthen⟩ := hprop
  have hreach : (reaping Sample.hasty).Reachable (Dying Sample.hasty 1000000000 0) s :=
    Sample.watched_reachable.run (.of_exec hs)
  refine ⟨s, t, hreach, .of_exec ht, hclosing, by simpa using htasks, hkill, ?_⟩
  refine (termination_honest_bounded Sample.hasty (by decide)).2 1000000000 0 s t hreach
    (.of_exec ht) hnext hclosing ?_
  rw [hnow, hthen]
  decide

end Grantd.Warden
