import Grantd.Warden.Steps
import Mathlib.Data.List.Perm.Basic

/-!
# Closing is one-way

The invariant of the warden's objects: the map holds every object that is not
Closed, under its own id; a Closed object has no sessions; and what the loop is
terminating is Closing until it says so itself. Pointers that calls keep across
lock releases only have to point to an object of the right id.
-/

namespace Grantd.Warden

open Base
open Signer (LifetimeGrant)

/-- What an `Attach` with a pointer to its grant goes by. -/
def AttachState.placing? : AttachState → Option Placing
  | .tracked j | .sliceFailed j | .sliced j | .readBack j _ | .lost j | .placed j
  | .attached j _ => some j
  | _ => none

/-- The objects `advanceClosing` still has to go through. -/
def LoopState.addrs : LoopState → List Nat
  | .closing todo => todo
  | .sent todo a _ | .signal todo a _ | .signalled todo a | .list todo a | .listed todo a _
  | .finalize todo a | .stopped todo a => a :: todo
  | _ => []

structure Objects (w : Warden) : Prop where
  entries : ∀ e ∈ w.grants.rows, e.addr < w.next ∧ (w.heap e.addr).id = e.id
  unmapped : ∀ a < w.next, (w.heap a).state ≠ .closed → w.mapped a = true
  closed : ∀ a < w.next, (w.heap a).state = .closed → (w.heap a).sessions = .empty
  deadline : ∀ a < w.next, (w.heap a).state = .opened → (w.heap a).deadlineMono.isSome = true

structure Inv (s : State) : Prop where
  objects : Objects s.shared.warden
  pointers : ∀ i, ∀ j ∈ (s.attaches i).placing?, j.addr < s.shared.warden.next ∧
    (s.shared.warden.heap j.addr).id = j.job.p.grantID
  terminating : ∀ a ∈ s.loop.addrs, a < s.shared.warden.next ∧
    (s.shared.warden.heap a).state = .closing
  distinct : s.loop.addrs.Nodup

-- ---------------------------------------------------------------------------
-- One object
-- ---------------------------------------------------------------------------

def GrantState.Follows (a b : GrantState) : Prop :=
  b = a ∨ a = .opened ∧ b = .closing ∨ a = .closing ∧ b = .closed

section
variable {cfg : Config} {s : State}

theorem Moves.id_eq (h : Moves cfg s act a g) : g.id = (s.shared.warden.heap a).id := by
  cases h <;> rfl

theorem Moves.opened (h : Moves cfg s act a g) (ho : g.state = .opened) :
    (s.shared.warden.heap a).state = .opened := by
  cases h with
  | close | closed => cases ho
  | retrack | shorten | same | attach | prune | term | remaining => exact ho

theorem Moves.closed_cases (h : Moves cfg s act a g) (hc : g.state = .closed) :
    (s.shared.warden.heap a).state = .closed ∨
      ∃ todo r, s.loop = .stopped todo a ∧ act = .run r := by
  cases h with
  | closed hst => exact .inr ⟨_, _, hst, rfl⟩
  | close => cases hc
  | retrack | shorten | same | attach | prune | term | remaining => exact .inl hc

theorem Moves.closed_stays (h : Moves cfg s act a g)
    (hc : (s.shared.warden.heap a).state = .closed) : g.state = .closed := by
  cases h with
  | closed => rfl
  | close hopen => cases hopen.symm.trans hc
  | retrack | shorten | same | attach | prune | term | remaining => exact hc

theorem Moves.closing_cases (h : Moves cfg s act a g)
    (hc : (s.shared.warden.heap a).state = .closing) :
    g.state = .closing ∨ ∃ todo r, s.loop = .stopped todo a ∧ act = .run r := by
  cases h with
  | closed hst => exact .inr ⟨_, _, hst, rfl⟩
  | close => exact .inl rfl
  | retrack | shorten | same | attach | prune | term | remaining => exact .inl hc

theorem Moves.follows (h : Moves cfg s act a g)
    (hstop : ∀ todo, s.loop = .stopped todo a → (s.shared.warden.heap a).state = .closing) :
    (s.shared.warden.heap a).state.Follows g.state := by
  cases h with
  | close hopen => exact .inr (.inl ⟨hopen, rfl⟩)
  | closed hst => exact .inr (.inr ⟨hstop _ hst, rfl⟩)
  | retrack | shorten | same | attach | prune | term | remaining => exact .inl rfl

theorem Moves.sessions_of_closed (h : Moves cfg s act a g) (hc : g.state = .closed)
    (hold : (s.shared.warden.heap a).state = .closed →
      (s.shared.warden.heap a).sessions = .empty) : g.sessions = .empty := by
  cases h with
  | closed => rfl
  | close => cases hc
  | prune => simp [hold hc, Table.delete, Table.empty]
  | attach _ _ hopen => cases hopen.symm.trans hc
  | retrack | shorten | same | term | remaining => exact hold hc

theorem Moves.deadline_isSome (h : Moves cfg s act a g) (ho : g.state = .opened)
    (hold : (s.shared.warden.heap a).state = .opened →
      (s.shared.warden.heap a).deadlineMono.isSome = true) : g.deadlineMono.isSome = true := by
  cases h with
  | retrack | shorten => rfl
  | close | closed => cases ho
  | same | attach | prune | term | remaining => exact hold ho

end

-- ---------------------------------------------------------------------------
-- The map
-- ---------------------------------------------------------------------------

theorem MapMoves.next_le (h : MapMoves w w') : w.next ≤ w'.next := by
  cases h with
  | same _ hnext | forget _ hnext => exact hnext.ge
  | add _ _ hnext => omega

theorem MapMoves.kept (h : MapMoves w w') (hm : w.mapped a = true)
    (hs : (w.heap a).state ≠ .closed) : w'.mapped a = true := by
  obtain ⟨e, he, rfl⟩ := mapped_iff.mp hm
  cases h with
  | same hgrants _ => exact mapped_iff.mpr ⟨e, hgrants ▸ he, rfl⟩
  | add hnone hgrants _ _ =>
    have hne : e.id ≠ _ := fun heq => by
      have : w.addr? e.id = some e.addr := addr?_eq_some.mpr he
      rw [heq, hnone] at this
      cases this
    refine mapped_iff.mpr ⟨e, ?_, rfl⟩
    rw [hgrants]
    exact List.mem_append_left _ (List.mem_filter.mpr ⟨he, by simpa using hne⟩)
  | forget hgrants _ hclosed =>
    refine mapped_iff.mpr ⟨e, ?_, rfl⟩
    rw [hgrants]
    refine List.mem_filter.mpr ⟨he, ?_⟩
    simp only [Bool.not_eq_true']
    by_contra hp
    exact hs (hclosed e (by simpa using hp))

theorem MapMoves.gone (h : MapMoves w w') (ha : a < w.next) (hm : w'.mapped a = true) :
    w.mapped a = true := by
  obtain ⟨e, he, rfl⟩ := mapped_iff.mp hm
  cases h with
  | same hgrants _ => exact mapped_iff.mpr ⟨e, hgrants ▸ he, rfl⟩
  | add _ hgrants _ _ =>
    rw [hgrants] at he
    rcases List.mem_append.mp he with he | he
    · exact mapped_iff.mpr ⟨e, (List.mem_filter.mp he).1, rfl⟩
    · cases List.mem_singleton.mp he
      exact absurd ha (Nat.lt_irrefl _)
  | forget hgrants _ _ =>
    rw [hgrants] at he
    exact mapped_iff.mpr ⟨e, (List.mem_filter.mp he).1, rfl⟩

theorem MapMoves.lt_cases (h : MapMoves w w') (ha : a < w'.next) :
    a < w.next ∨ w'.mapped a = true ∧
      ∃ expiresAt mono left id, w'.heap a = setDeadline expiresAt mono left (newGrant id) := by
  cases h with
  | same _ hnext | forget _ hnext => exact .inl (hnext ▸ ha)
  | @add expiresAt mono left id _ hgrants hnext hheap =>
    rcases Nat.lt_succ_iff_lt_or_eq.mp (hnext ▸ ha) with hlt | rfl
    · exact .inl hlt
    · refine .inr ⟨mapped_iff.mpr ⟨⟨id, w.next⟩, ?_, rfl⟩, expiresAt, mono, left, id, hheap⟩
      rw [hgrants]
      exact List.mem_append_right _ (List.mem_singleton.mpr rfl)

-- ---------------------------------------------------------------------------
-- The invariant
-- ---------------------------------------------------------------------------

section
variable {cfg : Config} {s t : State}

theorem Objects.step (ho : Objects s.shared.warden) (hsec : Section cfg s act w) : Objects w := by
  have hmap := hsec.map
  have hmoves {a : Nat} (ha : a < s.shared.warden.next) : Moves cfg s act a (w.heap a) :=
    hsec.moves cfg ha
  -- An object that is not Closed now was not Closed before.
  have hlive {a : Nat} (ha : a < s.shared.warden.next) (hs : (w.heap a).state ≠ .closed) :
      (s.shared.warden.heap a).state ≠ .closed := fun hc => hs ((hmoves ha).closed_stays hc)
  refine ⟨?_, ?_, ?_, ?_⟩
  · intro e he
    have hold (h : e ∈ s.shared.warden.grants.rows) :
        e.addr < w.next ∧ (w.heap e.addr).id = e.id := by
      obtain ⟨hlt, hid⟩ := ho.entries e h
      exact ⟨hlt.trans_le hmap.next_le, (hmoves hlt).id_eq.trans hid⟩
    cases hmap with
    | same hgrants _ => exact hold (hgrants ▸ he)
    | forget hgrants _ _ =>
      rw [hgrants] at he
      exact hold (List.mem_filter.mp he).1
    | add _ hgrants hnext hheap =>
      rw [hgrants] at he
      rcases List.mem_append.mp he with he | he
      · exact hold (List.mem_filter.mp he).1
      · cases List.mem_singleton.mp he
        exact ⟨hnext ▸ Nat.lt_succ_self _, by rw [hheap]; rfl⟩
  · intro a ha hs
    rcases hmap.lt_cases ha with hlt | ⟨hm, -⟩
    · exact hmap.kept (ho.unmapped a hlt (hlive hlt hs)) (hlive hlt hs)
    · exact hm
  · intro a ha hc
    rcases hmap.lt_cases ha with hlt | ⟨-, _, _, _, _, hheap⟩
    · exact (hmoves hlt).sessions_of_closed hc (ho.closed a hlt)
    · rw [hheap] at hc
      cases hc
  · intro a ha hopen
    rcases hmap.lt_cases ha with hlt | ⟨-, _, _, _, _, hheap⟩
    · exact (hmoves hlt).deadline_isSome hopen (ho.deadline a hlt)
    · rw [hheap]
      rfl

theorem attachNext_placing? (h : attachNext cfg i clock r m st = some (st', m', es))
    (hj : j ∈ st'.placing?) :
    j ∈ st.placing? ∨ st = .timed j.job j.now ∧
      m.warden.track j.job.p.grantID j.job.info.expiresAt clock.mono
        (timeLeft j.job.info.expiresAt j.now) = .ok (j.addr, m'.warden) := by
  cases st with
  | idle | attached | refused => simp [attachNext] at h
  | called | taken | answered | checked =>
    simp only [attachNext] at h
    split at h <;> cases h <;> cases hj
  | parent | valid | lost =>
    simp only [attachNext] at h
    cases h
    cases hj
  | timed job now =>
    simp only [attachNext] at h
    split at h
    · cases h
      cases hj
    · rename_i htrack
      cases h
      cases hj
      exact .inr ⟨rfl, htrack⟩
  | tracked j =>
    simp only [attachNext] at h
    split at h <;> cases h <;> exact .inl hj
  | sliceFailed j =>
    simp only [attachNext] at h
    split at h <;> cases h
    · exact .inl hj
    · cases hj
  | sliced j =>
    simp only [attachNext] at h
    split at h <;> cases h
    · exact .inl hj
    · cases hj
  | readBack j tries =>
    simp only [attachNext] at h
    split at h
    · cases h
      exact .inl hj
    · split at h
      · cases h
        exact .inl hj
      · split at h <;> cases h <;> exact .inl hj
  | placed j =>
    simp only [attachNext] at h
    split at h <;> cases h
    · cases hj
    · exact .inl hj

theorem Inv.pointers_step (hs : Inv s) (h : Machine.step (machine cfg) s act = some t) :
    ∀ i, ∀ j ∈ (t.attaches i).placing?, j.addr < t.shared.warden.next ∧
      (t.shared.warden.heap j.addr).id = j.job.p.grantID := by
  have hsec : Section cfg s act t.shared.warden := step_section cfg h
  have hkeeps {a : Nat} {id : GoString} (ha : a < s.shared.warden.next)
      (hid : (s.shared.warden.heap a).id = id) :
      a < t.shared.warden.next ∧ (t.shared.warden.heap a).id = id :=
    ⟨ha.trans_le hsec.map.next_le, (hsec.moves cfg ha).id_eq.trans hid⟩
  have hold {i : Nat} {j : Placing} (hj : j ∈ (s.attaches i).placing?) :
      j.addr < t.shared.warden.next ∧ (t.shared.warden.heap j.addr).id = j.job.p.grantID :=
    hkeeps (hs.pointers i j hj).1 (hs.pointers i j hj).2
  intro i j hj
  cases act with
  | tick c | exit unit pid =>
    cases h
    exact hold hj
  | run r | fork unit parent child | collect unit | admitStart n c | admitStep n r =>
    simp only [machine, step] at h
    split at h <;> cases h
    exact hold hj
  | attachStart k c =>
    simp only [machine, step] at h
    split at h <;> cases h
    simp only [Function.update_apply] at hj
    split at hj
    · unfold attachStart at hj
      repeat' split at hj
      all_goals cases hj
    · exact hold hj
  | attach k r =>
    simp only [machine, step] at h
    split at h
    · cases h
    · rename_i hnext
      cases h
      simp only [Function.update_apply] at hj
      split at hj
      · rcases attachNext_placing? hnext hj with hptr | ⟨-, htrack⟩
        · exact hold hptr
        · obtain ⟨haddr, -, -⟩ | ⟨-, haddr, heq⟩ := track_eq_ok htrack
          · obtain ⟨hlt, hid⟩ := hs.objects.entries _ (addr?_eq_some.mp haddr)
            exact hkeeps hlt hid
          · simp [haddr, heq, setDeadline, newGrant]
      · exact hold hj

theorem loopNext_addrs (h : loopNext cfg clock r m last st = some (st', last', m', k)) :
    (∃ l, l.Sublist st.addrs ∧ st'.addrs.Perm l ∧
      ∀ todo a, st = .stopped todo a → st'.addrs = todo) ∨
    st = .collect ∧ st'.addrs = m.warden.closingAddrs ∧ m' = m := by
  have hsub (hl : st'.addrs.Sublist st.addrs) (hne : ∀ todo a, st ≠ .stopped todo a := by simp) :
      ∃ l, l.Sublist st.addrs ∧ st'.addrs.Perm l ∧
        ∀ todo a, st = .stopped todo a → st'.addrs = todo :=
    ⟨_, hl, .refl _, fun todo a heq => absurd heq (hne todo a)⟩
  cases st with
  | collect =>
    simp only [loopNext] at h
    cases h
    exact .inr ⟨rfl, rfl, rfl⟩
  | stopped todo a =>
    simp only [loopNext] at h
    cases h
    exact .inl ⟨_, List.sublist_cons_self .., .refl _, fun todo' a' heq => by cases heq; rfl⟩
  | closing todo =>
    cases todo with
    | nil =>
      simp only [loopNext] at h
      cases h
      exact .inl (hsub .slnil)
    | cons a as =>
      simp only [loopNext] at h
      split at h
      · cases h
      · rename_i a' ha'
        cases h
        -- The picked address comes out of the list and stays in the loop's hands.
        obtain ⟨hlt, rfl⟩ := List.getElem?_eq_some_iff.mp ha'
        exact .inl ⟨a :: as, .refl _, List.getElem_cons_eraseIdx_perm hlt, by simp⟩
  | polling todo =>
    cases todo with
    | nil =>
      simp only [loopNext] at h
      cases h
      exact .inl (hsub .slnil)
    | cons id ids =>
      simp only [loopNext] at h
      split at h <;> cases h
      exact .inl (hsub .slnil)
  | signalled todo a =>
    simp only [loopNext] at h
    split at h
    · cases h
      exact .inl (hsub (List.sublist_cons_self ..))
    · split at h <;> cases h <;> exact .inl (hsub (.refl _))
  | listed todo a pids =>
    simp only [loopNext] at h
    cases h
    exact .inl (hsub (List.sublist_cons_self ..))
  | enforced | sent | signal =>
    simp only [loopNext] at h
    split at h <;> cases h <;> exact .inl (hsub (.refl _))
  | idle | enforcing | polled | expire | expiring | prune | list | finalize =>
    simp only [loopNext] at h
    cases h
    exact .inl (hsub (.refl _))

theorem Objects.closingAddrs_nodup (ho : Objects w) : w.closingAddrs.Nodup := by
  have hrows : w.grants.rows.Nodup := List.Nodup.of_map _ w.grants.distinct
  refine List.Nodup.map_on ?_ (hrows.filter _)
  intro e he e' he' heq
  have hid := (ho.entries e (List.mem_filter.mp he).1).2
  have hid' := (ho.entries e' (List.mem_filter.mp he').1).2
  cases e
  cases e'
  simp_all

theorem Objects.closingAddrs_closing (ho : Objects w) (ha : a ∈ w.closingAddrs) :
    a < w.next ∧ (w.heap a).state = .closing := by
  obtain ⟨e, he, rfl⟩ := List.mem_map.mp ha
  obtain ⟨hmem, hstate⟩ := List.mem_filter.mp he
  exact ⟨(ho.entries e hmem).1, by simpa using hstate⟩

theorem step_loop (h : step cfg s act = some t) :
    t.loop = s.loop ∧ (∀ r, act ≠ .run r) ∨ ∃ r m k, act = .run r ∧ t.shared = m.kill cfg k ∧
      loopNext cfg s.clock r s.shared s.lastPoll s.loop = some (t.loop, t.lastPoll, m, k) := by
  cases act with
  | run r =>
    simp only [step] at h
    split at h
    · cases h
    · rename_i hnext
      cases h
      exact .inr ⟨r, _, _, rfl, rfl, hnext⟩
  | tick c | exit unit pid =>
    cases h
    exact .inl ⟨rfl, fun r hr => by cases hr⟩
  | fork unit parent child | collect unit | admitStart n c | admitStep n r | attachStart i c
  | attach i r =>
    simp only [step] at h
    split at h <;> cases h
    exact .inl ⟨rfl, fun r hr => by cases hr⟩

theorem Inv.step (hs : Inv s) (h : step cfg s act = some t) : Inv t := by
  have hsec : Section cfg s act t.shared.warden := step_section cfg h
  have hclosing {a : Nat} (ha : a ∈ s.loop.addrs)
      (hne : ∀ todo r, s.loop = .stopped todo a → act ≠ .run r) :
      a < t.shared.warden.next ∧ (t.shared.warden.heap a).state = .closing := by
    obtain ⟨hlt, hc⟩ := hs.terminating a ha
    refine ⟨hlt.trans_le hsec.map.next_le, ?_⟩
    rcases (hsec.moves cfg hlt).closing_cases hc with hc' | ⟨todo, r, hst, hact⟩
    · exact hc'
    · exact absurd hact (hne todo r hst)
  refine ⟨hs.objects.step hsec, hs.pointers_step h, ?_, ?_⟩
  · intro a ha
    rcases step_loop h with ⟨hloop, hact⟩ | ⟨r, m, k, rfl, hshared, hnext⟩
    · exact hclosing (hloop ▸ ha) fun _ r _ => hact r
    · rcases loopNext_addrs hnext with ⟨l, hl, hperm, hstop⟩ | ⟨-, haddrs, hm⟩
      · have hmem : a ∈ s.loop.addrs := hl.subset (hperm.mem_iff.mp ha)
        refine hclosing hmem fun todo _ hst => ?_
        -- The object that is being closed has left the list.
        have hnodup := hs.distinct
        rw [hst] at hnodup
        rw [hstop todo a hst] at ha
        exact absurd ha (List.nodup_cons.mp hnodup).1
      · rw [hshared, Shared.kill_warden, hm]
        exact hs.objects.closingAddrs_closing (haddrs ▸ ha)
  · rcases step_loop h with ⟨hloop, -⟩ | ⟨r, m, k, rfl, hshared, hnext⟩
    · exact hloop ▸ hs.distinct
    · rcases loopNext_addrs hnext with ⟨l, hl, hperm, -⟩ | ⟨-, haddrs, -⟩
      · exact hperm.nodup_iff.mpr (hs.distinct.sublist hl)
      · exact haddrs ▸ hs.objects.closingAddrs_nodup

theorem Inv.initial (h : Initial cfg s) : Inv s := by
  refine ⟨⟨h.entries, fun a ha _ => (h.objects a ha).1, ?_, ?_⟩, ?_, ?_, ?_⟩
  · intro a ha hc
    rcases (h.objects a ha).2 with ⟨hopen, -⟩ | hclosing
    · cases hopen.symm.trans hc
    · cases hclosing.symm.trans hc
  · intro a ha hopen
    rcases (h.objects a ha).2 with ⟨-, hd⟩ | hclosing
    · exact hd
    · cases hclosing.symm.trans hopen
  · intro i j hj
    rw [h.attaches i] at hj
    cases hj
  · intro a ha
    rw [h.loop] at ha
    cases ha
  · rw [h.loop]
    exact .nil

theorem Inv.reachable (hs : (machine cfg).Reachable ok s) : Inv s :=
  hs.invariant (fun _ h => .initial h) fun _ _ _ hI _ hstep => hI.step hstep

-- ---------------------------------------------------------------------------
-- Sessions
-- ---------------------------------------------------------------------------

theorem Moves.gains (h : Moves cfg s act a g) (hmem : sess ∈ g.sessions.rows)
    (hnew : sess ∉ (s.shared.warden.heap a).sessions.rows) :
    (s.shared.warden.heap a).state = .opened ∧ ∃ i r j, act = .attach i r ∧
      s.attaches i = .placed j ∧ j.addr = a ∧ sess = j.session cfg := by
  cases h with
  | attach hst haddr hopen =>
    rcases List.mem_append.mp hmem with hold | hsess
    · exact absurd (List.mem_filter.mp hold).1 hnew
    · exact ⟨hopen, _, _, _, rfl, hst, haddr, List.mem_singleton.mp hsess⟩
  | prune => exact absurd (List.mem_filter.mp hmem).1 hnew
  | closed => cases hmem
  | retrack | shorten | same | close | term | remaining => exact absurd hmem hnew

theorem attach_returns (h : step cfg s (.attach i r) = some t) (hst : s.attaches i = .placed j)
    (hopen : (s.shared.warden.heap j.addr).state = .opened) :
    t.attaches i = .attached j (j.session cfg) := by
  have hsec : s.shared.warden.attachSession j.addr j.job.p.grantID (j.session cfg) =
      .ok (s.shared.warden.write j.addr { s.shared.warden.heap j.addr with
        sessions := (s.shared.warden.heap j.addr).sessions.put (j.session cfg) }) := by
    simp [attachSession, hopen]
    rfl
  simp only [step, hst, attachNext, hsec] at h
  cases h
  simp

theorem removed_stays (hs : (machine cfg).Reachable ok s) (hrun : (machine cfg).Run ok s t)
    (ha : a < s.shared.warden.next) (hm : s.shared.warden.mapped a = false) :
    a < t.shared.warden.next ∧ t.shared.warden.mapped a = false ∧
      (t.shared.warden.heap a).state = .closed := by
  induction hrun with
  | refl =>
    refine ⟨ha, hm, ?_⟩
    by_contra hne
    have := (Inv.reachable hs).objects.unmapped a ha hne
    simp [hm] at this
  | step _ _ hstep ih =>
    obtain ⟨hlt, hm', hc⟩ := ih
    have hsec := step_section cfg hstep
    refine ⟨hlt.trans_le hsec.map.next_le, ?_, (hsec.moves cfg hlt).closed_stays hc⟩
    by_contra hback
    have := hsec.map.gone hlt (by simpa using hback)
    simp [hm'] at this

/-- An object is made Open and in the map; it goes to Closing, to Closed and
then out of the map, never back. A session comes in only while it is Open, with
an `Attach` that succeeds; a Closed object has none, and one that has been
removed never gets one. -/
theorem closing_one_way (hs : (machine cfg).Reachable (fun _ _ => True) s)
    (h : (machine cfg).step s act = some t) (ha : a < s.shared.warden.next) :
    (s.shared.warden.heap a).state.Follows (t.shared.warden.heap a).state ∧
    (s.shared.warden.mapped a = true → t.shared.warden.mapped a = false →
      (s.shared.warden.heap a).state = .closed) ∧
    (s.shared.warden.mapped a = false → t.shared.warden.mapped a = false) ∧
    (∀ sess ∈ (t.shared.warden.heap a).sessions.rows,
      sess ∉ (s.shared.warden.heap a).sessions.rows →
      (s.shared.warden.heap a).state = .opened ∧ s.shared.warden.mapped a = true ∧
      ∃ i r j, act = .attach i r ∧ s.attaches i = .placed j ∧ j.addr = a ∧
        t.attaches i = .attached j sess) ∧
    ((t.shared.warden.heap a).state = .closed →
      (t.shared.warden.heap a).sessions = .empty) ∧
    (t.shared.warden.mapped a = false → ∀ u, (machine cfg).Run (fun _ _ => True) t u →
      u.shared.warden.mapped a = false ∧ (u.shared.warden.heap a).sessions = .empty) ∧
    (∀ b < t.shared.warden.next, s.shared.warden.next ≤ b →
      (t.shared.warden.heap b).state = .opened ∧ t.shared.warden.mapped b = true ∧
      (t.shared.warden.heap b).sessions = .empty) := by
  have hI := Inv.reachable hs
  have hsec : Section cfg s act t.shared.warden := step_section cfg h
  have hmoves := hsec.moves cfg ha
  have ht := hs.step trivial h
  have hlt : a < t.shared.warden.next := ha.trans_le hsec.map.next_le
  refine ⟨?_, ?_, ?_, ?_, (Inv.reachable ht).objects.closed a hlt, ?_, ?_⟩
  · refine hmoves.follows fun todo hst => ?_
    exact (hI.terminating a (by rw [hst]; exact List.mem_cons_self)).2
  · intro hm hm'
    by_contra hne
    have := hsec.map.kept hm hne
    simp [hm'] at this
  · intro hm
    by_contra hback
    have := hsec.map.gone ha (by simpa using hback)
    simp [hm] at this
  · intro sess hmem hnew
    obtain ⟨hopen, i, r, j, rfl, hst, rfl, rfl⟩ := hmoves.gains hmem hnew
    refine ⟨hopen, hI.objects.unmapped _ ha (by simp [hopen]), i, r, j, rfl, hst, rfl, ?_⟩
    exact attach_returns h hst hopen
  · intro hm u hrun
    obtain ⟨hu, hm', hc⟩ := removed_stays ht hrun hlt hm
    exact ⟨hm', (Inv.reachable (ht.run hrun)).objects.closed a hu hc⟩
  · intro b hb hnew
    rcases hsec.map.lt_cases hb with hold | ⟨hm, _, _, _, _, hheap⟩
    · exact absurd hold (Nat.not_lt.mpr hnew)
    · rw [hheap]
      exact ⟨rfl, hm, rfl⟩

end

-- ---------------------------------------------------------------------------
-- A host to run on
-- ---------------------------------------------------------------------------

namespace Sample

def config : Config where
  sshUser := lit "visitor"
  slice := lit "grantd.slice"
  admitUID := 998
  termGrace := 5 * second
  poll := 2 * second
  pendingTTL := 180 * second

def grantID : GoString := lit "g_aaaaaaaaaaaaaaaa"
def keyID : GoString := lit "grantd:g_aaaaaaaaaaaaaaaa:a_ni4ahvpqlgicuhdnv66jxjdssijppsvm"

def sshd (pid : Int) : Proc := ⟨pid, 1, 0, 77, lit "sshd-session", lit "/system.slice/ssh.service"⟩

def admitCall (pid : Int) : AdmitCall :=
  ⟨⟨pid + 1, pid, 998, 78, lit "grant-warden", []⟩, lit "visitor", keyID, lit "7"⟩

def attachCall (pid : Int) : AttachCall :=
  ⟨⟨pid + 2, pid, 0, 79, lit "grant-warden", []⟩, lit "visitor"⟩

/-- The grant was redeemed at 900 and lasts until 2000. -/
def info : LifetimeGrant := ⟨grantID, lit "visitor", 2000, some 900, none, lit "7"⟩

def reading (pid : Int) : Reading where
  parent := some (sshd pid)
  answer := .ok info
  ok := true
  placed := true
  proc := some { sshd pid with
    cgroup := sliceCgroup config grantID ++ lit "/" ++ scopeUnit config grantID pid }
  pick := 0
  alive := fun _ => some 77

def initial : State where
  shared := ⟨⟨fun _ => newGrant [], 0, .empty, .empty, true⟩, fun _ => ⟨false, []⟩⟩
  admits := fun _ => .idle
  attaches := fun _ => .idle
  loop := .idle
  lastPoll := none
  clock := ⟨1000, 0⟩
  log := []

theorem initial_reachable : (machine config).Reachable ok initial := by
  refine .of_init ⟨rfl, nofun, nofun, ?_, rfl, fun _ => rfl, fun _ => rfl, rfl, rfl⟩
  exact fun _ h => absurd rfl h

def admission (n : Nat) (pid : Int) : List Action :=
  .admitStart n (admitCall pid) :: List.replicate 5 (.admitStep n (reading pid))

def tracking (n : Nat) (pid : Int) : List Action :=
  .attachStart n (attachCall pid) :: List.replicate 7 (.attach n (reading pid))

def placing (n : Nat) (pid : Int) : List Action := List.replicate 3 (.attach n (reading pid))

end Sample

/-- The session of a first connection. -/
theorem closing_one_way_attach : ∃ s t, (machine Sample.config).Reachable (fun _ _ => True) s ∧
    (machine Sample.config).step s (.attach 0 (Sample.reading 4242)) = some t ∧
    0 < s.shared.warden.next ∧ (s.shared.warden.heap 0).sessions.rows = [] ∧
    (t.shared.warden.heap 0).sessions.rows ≠ [] ∧
    (s.shared.warden.heap 0).state = .opened ∧
    (s.shared.warden.heap 0).state.Follows (t.shared.warden.heap 0).state := by
  have hexec : ((machine Sample.config).exec (fun _ _ => True) Sample.initial
      (Sample.admission 0 4242 ++ Sample.tracking 0 4242 ++ Sample.placing 0 4242)).any
      (fun s => decide (0 < s.shared.warden.next) &&
        (s.shared.warden.heap 0).sessions.rows == [] &&
        ((machine Sample.config).step s (.attach 0 (Sample.reading 4242))).any fun t =>
          (t.shared.warden.heap 0).sessions.rows != []) = true := by
    decide +kernel
  obtain ⟨s, hs, hprop⟩ := Option.any_eq_true .. |>.mp hexec
  simp only [Bool.and_eq_true, beq_iff_eq, decide_eq_true_eq] at hprop
  obtain ⟨⟨hnext, hnone⟩, hstep⟩ := hprop
  obtain ⟨t, ht, hsome⟩ := Option.any_eq_true .. |>.mp hstep
  simp only [bne_iff_ne, ne_eq] at hsome
  have hreach : (machine Sample.config).Reachable (fun _ _ => True) s :=
    Sample.initial_reachable.run (.of_exec hs)
  obtain ⟨hfollows, -, -, hsession, -⟩ := closing_one_way hreach ht hnext
  obtain ⟨sess, hsess⟩ := List.exists_mem_of_ne_nil _ hsome
  refine ⟨s, t, hreach, ht, hnext, hnone, hsome, ?_, hfollows⟩
  exact (hsession sess hsess (by simp [hnone])).1

end Grantd.Warden
