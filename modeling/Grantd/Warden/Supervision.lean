import Grantd.Warden.Closing

/-!
# Tasks and their supervision

A slice with a task in it has a grant the warden tracks, is not done with, and
will still stop. That holds as long as no scope is started too late:
`StartScope` runs without the lock, and nothing but its place in the run
decides whether the loop has already stopped the slice.
-/

namespace Grantd.Warden

open Base

/-- The object whose slice the loop has stopped and not yet marked Closed. -/
def LoopState.stopping : LoopState → Option Nat
  | .stopped _ a => some a
  | _ => none

def Covers (s : State) (id : GoString) : Prop :=
  ∃ a ∈ s.shared.warden.addr? id,
    (s.shared.warden.heap a).state ≠ .closed ∧ s.loop.stopping ≠ some a

def startsScope (s : State) : Action → Option GoString
  | .attach i r =>
    match s.attaches i with
    | .sliced j => if r.placed then some j.job.p.grantID else none
    | _ => none
  | _ => none

/-- A scope is started while its slice is still to be stopped. -/
def InTime (s : State) (act : Action) : Prop := ∀ id ∈ startsScope s act, Covers s id

instance (s : State) (id : GoString) : Decidable (Covers s id) :=
  inferInstanceAs (Decidable (∃ a ∈ s.shared.warden.addr? id, _ ∧ _))

instance (s : State) (act : Action) : Decidable (InTime s act) :=
  inferInstanceAs (Decidable (∀ id ∈ startsScope s act, _))

theorem sliceUnit_inj {cfg : Config} {id id' : GoString}
    (h : sliceUnit cfg id = sliceUnit cfg id') :
    id = id' := by
  simpa [sliceUnit] using h

-- ---------------------------------------------------------------------------
-- Tasks
-- ---------------------------------------------------------------------------

section
variable {cfg : Config} {s t : State}

theorem tasksOf_tasks (k : Slices) :
    (k.tasksOf unit ts u).tasks = if u = unit then ts else (k u).tasks := by
  simp only [Slices.tasksOf, Function.update_apply]
  split <;> rfl

theorem start_tasks (k : Slices) : (k.start unit u).tasks = (k u).tasks := by
  simp only [Slices.start, Function.update_apply]
  split
  · rename_i hu
    rw [hu]
  · rfl

theorem place_tasks (k : Slices) (h : (k.place unit task u).tasks ≠ []) :
    u = unit ∨ (k u).tasks ≠ [] := by
  simp only [Slices.place, Function.update_apply] at h
  split at h
  · rename_i hu
    exact .inl hu
  · exact .inr h

theorem stop_tasks (k : Slices) :
    (k.stop unit u).tasks = if u = unit then [] else (k u).tasks := by
  simp only [Slices.stop, Function.update_apply]
  split <;> rfl

theorem tasksOf_tasks_ne (k : Slices) (hsub : ts ≠ [] → (k unit).tasks ≠ [])
    (h : (k.tasksOf unit ts u).tasks ≠ []) : (k u).tasks ≠ [] := by
  rw [tasksOf_tasks] at h
  split at h
  · rename_i hu
    exact hu ▸ hsub h
  · exact h

variable (cfg) in
/-- What an action can make of the slices: tasks come into one that has none
only with `StartScope`. -/
inductive SliceMoves (s : State) (act : Action) : Slices → Prop
  | same : SliceMoves s act s.shared.slices
  | start : SliceMoves s act (s.shared.slices.start unit)
  | place {id : GoString} : id ∈ startsScope s act →
      SliceMoves s act (s.shared.slices.place (sliceUnit cfg id) task)
  | fork : (s.shared.slices unit).tasks ≠ [] → SliceMoves s act (s.shared.slices.place unit task)
  | leave : (ts ≠ [] → (s.shared.slices unit).tasks ≠ []) →
      SliceMoves s act (s.shared.slices.tasksOf unit ts)
  | stop : SliceMoves s act (s.shared.slices.stop unit)

theorem filter_ne_nil (l : List Task) (p : Task → Bool) : l.filter p ≠ [] → l ≠ [] := by
  rintro h rfl
  exact h rfl

theorem admitNext_slices (h : admitNext n clock r m st = some (st', m', es)) :
    m'.slices = m.slices := by
  cases st with
  | idle | admitted | refused => simp [admitNext] at h
  | allowed =>
    simp only [admitNext] at h
    cases h
    rfl
  | called | parent | answered | checked =>
    simp only [admitNext] at h
    split at h <;> cases h <;> rfl

theorem attachNext_slices
    (h : attachNext cfg i s.clock r s.shared (s.attaches i) = some (st, m, es)) :
    SliceMoves cfg s (.attach i r) m.slices := by
  cases hst : s.attaches i with
  | sliced j =>
    simp only [hst, attachNext] at h
    have hm : m.slices = if r.placed then
        s.shared.slices.place (j.unit cfg) ⟨j.job.sshd.pid, j.scope cfg⟩ else s.shared.slices := by
      split at h <;> cases h <;> rfl
    rw [hm]
    split
    · rename_i hplaced
      exact .place (by simp [startsScope, hst, hplaced])
    · exact .same
  | tracked j =>
    simp only [hst, attachNext] at h
    split at h <;> cases h
    · exact .start
    · exact .same
  | lost j =>
    simp only [hst, attachNext] at h
    cases h
    exact .leave (filter_ne_nil _ _)
  | idle | attached | refused => simp [hst, attachNext] at h
  | parent | valid =>
    simp only [hst, attachNext] at h
    cases h
    exact .same
  | called | taken | answered | checked | timed | sliceFailed | placed =>
    simp only [hst, attachNext] at h
    split at h <;> cases h <;> exact .same
  | readBack j tries =>
    simp only [hst, attachNext] at h
    split at h
    · cases h
      exact .same
    · split at h
      · cases h
        exact .same
      · split at h <;> cases h <;> exact .same

theorem loopNext_slices (h : loopNext cfg clock r m last st = some (st', last', m', k)) :
    (st'.stopping = none ∧
      ((m'.kill cfg k).slices = m.slices ∨
        ∃ unit, (m'.kill cfg k).slices = m.slices.tasksOf unit [])) ∨
    k = none ∧ ∃ todo a, st' = .stopped todo a ∧
      m' = { m with slices := m.slices.stop (m.unit cfg a) } := by
  cases st with
  | finalize todo a =>
    simp only [loopNext] at h
    cases h
    exact .inr ⟨rfl, todo, a, rfl, rfl⟩
  | signal todo a elapsed =>
    simp only [loopNext] at h
    split at h <;> cases h
    · exact .inl ⟨rfl, .inl rfl⟩
    · cases r.ok with
      | false => exact .inl ⟨rfl, .inl rfl⟩
      | true => exact .inl ⟨rfl, .inr ⟨_, rfl⟩⟩
  | signalled todo a =>
    simp only [loopNext] at h
    split at h
    · cases h
      exact .inl ⟨rfl, .inl rfl⟩
    · split at h <;> cases h <;> exact .inl ⟨rfl, .inl rfl⟩
  | polling todo =>
    cases todo with
    | nil =>
      simp only [loopNext] at h
      cases h
      exact .inl ⟨rfl, .inl rfl⟩
    | cons id ids =>
      simp only [loopNext] at h
      split at h <;> cases h
      exact .inl ⟨rfl, .inl rfl⟩
  | closing todo =>
    cases todo with
    | nil =>
      simp only [loopNext] at h
      cases h
      exact .inl ⟨rfl, .inl rfl⟩
    | cons a as =>
      simp only [loopNext] at h
      split at h <;> cases h
      exact .inl ⟨rfl, .inl rfl⟩
  | enforced | sent =>
    simp only [loopNext] at h
    split at h <;> cases h <;> exact .inl ⟨rfl, .inl rfl⟩
  | idle | enforcing | polled | expire | expiring | prune | collect | list | listed | stopped =>
    simp only [loopNext] at h
    cases h
    exact .inl ⟨rfl, .inl rfl⟩

theorem step_slices (h : step cfg s act = some t) : SliceMoves cfg s act t.shared.slices := by
  cases act with
  | tick c =>
    cases h
    exact .same
  | admitStart n c | attachStart i c =>
    simp only [step] at h
    split at h <;> cases h
    exact .same
  | admitStep n r =>
    simp only [step] at h
    split at h
    · cases h
    · rename_i hnext
      cases h
      simp only [admitNext_slices hnext]
      exact .same
  | attach i r =>
    simp only [step] at h
    split at h
    · cases h
    · rename_i hnext
      cases h
      exact attachNext_slices hnext
  | run r =>
    simp only [step] at h
    split at h
    · cases h
    · rename_i hnext
      cases h
      rcases loopNext_slices hnext with ⟨-, heq | ⟨unit, heq⟩⟩ | ⟨rfl, todo, a, -, rfl⟩
      · simp only [heq]
        exact .same
      · simp only [heq]
        exact .leave fun hne => absurd rfl hne
      · exact .stop
  | exit unit pid =>
    cases h
    exact .leave (filter_ne_nil _ _)
  | fork unit parent child =>
    simp only [step] at h
    split at h
    · cases h
    · rename_i task hfind
      cases h
      exact .fork (List.ne_nil_of_mem (List.mem_of_find?_eq_some hfind))
  | collect unit =>
    simp only [step] at h
    split at h <;> cases h
    exact .stop

theorem SliceMoves.tasks (h : SliceMoves cfg s act k) (hne : (k u).tasks ≠ []) :
    (s.shared.slices u).tasks ≠ [] ∨ ∃ id ∈ startsScope s act, u = sliceUnit cfg id := by
  cases h with
  | same => exact .inl hne
  | start => exact .inl (by rwa [start_tasks] at hne)
  | place hid =>
    rcases place_tasks _ hne with hu | hold
    · exact .inr ⟨_, hid, hu⟩
    · exact .inl hold
  | fork htask =>
    rcases place_tasks _ hne with rfl | hold
    · exact .inl htask
    · exact .inl hold
  | leave hsub => exact .inl (tasksOf_tasks_ne _ hsub hne)
  | stop =>
    rw [stop_tasks] at hne
    split at hne
    · exact absurd rfl hne
    · exact .inl hne

-- ---------------------------------------------------------------------------
-- Coverage
-- ---------------------------------------------------------------------------

theorem Covers.initial {id : GoString} (h : Initial cfg s)
    (hne : (s.shared.slices (sliceUnit cfg id)).tasks ≠ []) : Covers s id := by
  obtain ⟨e, he, hu⟩ := h.slices _ hne
  cases sliceUnit_inj hu
  refine ⟨e.addr, addr?_eq_some.mpr he, ?_, by simp [h.loop, LoopState.stopping]⟩
  rcases (h.objects _ (h.entries e he).1).2 with ⟨hopen, -⟩ | hclosing
  · simp [hopen]
  · simp [hclosing]

theorem Covers.step {id : GoString} (hc : Covers s id) (hs : Inv s) (h : step cfg s act = some t)
    (hne : (t.shared.slices (sliceUnit cfg id)).tasks ≠ []) : Covers t id := by
  obtain ⟨a, haddr, hlive, hstop⟩ := hc
  have hsec : Section cfg s act t.shared.warden := step_section cfg h
  have hentry := addr?_eq_some.mp haddr
  obtain ⟨hlt, hid⟩ := hs.objects.entries _ hentry
  have hmoves : Moves cfg s act a (t.shared.warden.heap a) := hsec.moves cfg hlt
  have hid' : (t.shared.warden.heap a).id = id := hmoves.id_eq.trans hid
  refine ⟨a, addr?_eq_some.mpr ?_, fun hclosed => ?_, ?_⟩
  · obtain ⟨e, he, rfl⟩ := mapped_iff.mp
      (hsec.map.kept (mapped_iff.mpr ⟨_, hentry, rfl⟩) hlive)
    have hid'' := ((hs.step h).objects.entries e he).2
    rwa [← hid', hid'']
  · rcases hmoves.closed_cases hclosed with hold | ⟨todo, r, hloop, -⟩
    · exact hlive hold
    · exact hstop (by rw [hloop]; rfl)
  · rcases step_loop h with ⟨hloop, -⟩ | ⟨r, m, k, -, hshared, hnext⟩
    · rwa [hloop]
    · rcases loopNext_slices hnext with ⟨hnone, -⟩ | ⟨rfl, todo, b, hloop, hm⟩
      · simp [hnone]
      · intro hb
        rw [hloop] at hb
        cases hb
        -- The loop has just emptied this very slice.
        refine hne ?_
        rw [hshared, Shared.kill_none, hm, stop_tasks, if_pos]
        exact congrArg (sliceUnit cfg) hid.symm

/-- In every run whose scopes are all started in time, a slice with a task in
it belongs to a grant that is tracked and still to be stopped. So when a grant
is Closed or not tracked, nothing is left in its slice. -/
theorem no_task_unsupervised (hs : (machine cfg).Reachable InTime s) (id : GoString) :
    ((s.shared.slices (sliceUnit cfg id)).tasks ≠ [] → Covers s id) ∧
    ((∀ a, s.shared.warden.addr? id = some a → (s.shared.warden.heap a).state = .closed) →
      (s.shared.slices (sliceUnit cfg id)).tasks = []) := by
  have hcov : (s.shared.slices (sliceUnit cfg id)).tasks ≠ [] → Covers s id := by
    obtain ⟨s₀, hinit, hrun⟩ := hs
    induction hrun with
    | refl => exact Covers.initial hinit
    | step hrun hok hstep ih =>
      intro hne
      have hI := Inv.reachable ⟨s₀, hinit, hrun⟩
      refine Covers.step ?_ hI hstep hne
      rcases (step_slices hstep).tasks hne with hold | ⟨id', hid', hu⟩
      · exact ih hold
      · rw [sliceUnit_inj hu]
        exact hok id' hid'
  refine ⟨hcov, fun hclosed => ?_⟩
  by_contra hne
  obtain ⟨a, haddr, hlive, -⟩ := hcov hne
  exact hlive (hclosed a haddr)

end

-- ---------------------------------------------------------------------------
-- Terminating
-- ---------------------------------------------------------------------------

def AttachState.inProgress : AttachState → Bool
  | .idle | .attached .. | .refused _ => false
  | _ => true

def Action.attach? : Action → Option Nat
  | .attachStart i _ | .attach i _ => some i
  | _ => none

theorem step_attaches {cfg : Config} (h : step cfg s act = some t) (hi : act.attach? ≠ some i) :
    t.attaches i = s.attaches i := by
  cases act with
  | tick c | exit unit pid =>
    cases h
    rfl
  | run r | fork unit parent child | collect unit | admitStart n c | admitStep n r =>
    simp only [step] at h
    split at h <;> cases h
    rfl
  | attachStart k c | attach k r =>
    have hne : i ≠ k := fun heq => hi (congrArg some heq.symm)
    simp only [step] at h
    split at h <;> cases h
    simp [hne]

theorem exec_attaches {cfg : Config} [∀ s l, Decidable (ok s l)]
    (h : (machine cfg).exec ok s acts = some t) (hi : ∀ act ∈ acts, act.attach? ≠ some i) :
    t.attaches i = s.attaches i := by
  induction acts generalizing s with
  | nil =>
    cases h
    rfl
  | cons act acts ih =>
    simp only [Machine.exec] at h
    split at h
    · obtain ⟨u, hu, htail⟩ := Option.bind_eq_some_iff.mp h
      rw [ih htail fun act' hact' => hi act' (List.mem_cons_of_mem _ hact'),
        step_attaches hu (hi act List.mem_cons_self)]
    · cases h

namespace Sample

def expiry (steps : Nat) : List Action :=
  .tick ⟨2000, 1000 * second⟩ :: List.replicate steps (.run (reading 4242))

def ended : List Action :=
  admission 0 4242 ++ tracking 0 4242 ++ placing 0 4242 ++ [.attach 0 (reading 4242)] ++
    expiry 15 ++ [.exit (sliceUnit config grantID) 4242] ++
    List.replicate 14 (.run (reading 4242))

def overtaken : List Action :=
  admission 0 4242 ++ tracking 0 4242 ++ expiry 13 ++ placing 0 4242 ++
    [.attach 0 (reading 4242)]

def tasks (s : State) : List Task := (s.shared.slices (sliceUnit config grantID)).tasks

end Sample

theorem no_task_unsupervised_ended : ∃ s, (machine Sample.config).Reachable InTime s ∧
    s.shared.warden.addr? Sample.grantID = some 0 ∧ (s.shared.warden.heap 0).state = .closed ∧
    Sample.tasks s = [] := by
  have hexec : ((machine Sample.config).exec InTime Sample.initial Sample.ended).any (fun s =>
      s.shared.warden.addr? Sample.grantID == some 0 &&
      (s.shared.warden.heap 0).state == .closed) = true := by
    decide +kernel
  obtain ⟨s, hs, hprop⟩ := Option.any_eq_true .. |>.mp hexec
  simp only [Bool.and_eq_true, beq_iff_eq] at hprop
  obtain ⟨haddr, hclosed⟩ := hprop
  have hreach : (machine Sample.config).Reachable InTime s :=
    Sample.initial_reachable.run (.of_exec hs)
  refine ⟨s, hreach, haddr, hclosed, (no_task_unsupervised hreach Sample.grantID).2 ?_⟩
  intro a ha
  cases haddr.symm.trans ha
  exact hclosed

/-- The grant is Closed, no `Attach` is in progress and the loop is idle, but
the process of the refused `Attach` is in the slice. -/
theorem task_outlives_termination : ∃ s,
    (machine Sample.config).Reachable (fun _ _ => True) s ∧
    s.shared.warden.addr? Sample.grantID = some 0 ∧ (s.shared.warden.heap 0).state = .closed ∧
    (∀ i, (s.attaches i).inProgress = false) ∧
    s.attaches 0 = .refused (.denied (.closedWhileAttaching Sample.grantID)) ∧
    s.loop = .idle ∧
    Sample.tasks s = [⟨4242, scopeUnit Sample.config Sample.grantID 4242⟩] := by
  have hexec : ((machine Sample.config).exec (fun _ _ => True) Sample.initial
      Sample.overtaken).any (fun s =>
        s.shared.warden.addr? Sample.grantID == some 0 &&
        (s.shared.warden.heap 0).state == .closed &&
        Sample.tasks s == [⟨4242, scopeUnit Sample.config Sample.grantID 4242⟩] &&
        (match s.attaches 0 with
          | .refused e => e == .denied (.closedWhileAttaching Sample.grantID)
          | _ => false) &&
        match s.loop with
        | .idle => true
        | _ => false) = true := by
    decide +kernel
  have hcalls : Sample.overtaken.all (fun act => act.attach? == none || act.attach? == some 0) =
      true := by
    decide +kernel
  obtain ⟨s, hs, hprop⟩ := Option.any_eq_true .. |>.mp hexec
  simp only [Bool.and_eq_true, beq_iff_eq] at hprop
  obtain ⟨⟨⟨⟨haddr, hclosed⟩, htasks⟩, hrefused⟩, hloop⟩ := hprop
  have hfirst : s.attaches 0 = .refused (.denied (.closedWhileAttaching Sample.grantID)) := by
    split at hrefused
    · rename_i hst
      rw [hst, beq_iff_eq.mp hrefused]
    · cases hrefused
  refine ⟨s, Sample.initial_reachable.run (.of_exec hs), haddr, hclosed, fun i => ?_, hfirst, ?_,
    htasks⟩
  · by_cases hi : i = 0
    · rw [hi, hfirst]
      rfl
    · have hidle : s.attaches i = .idle := exec_attaches hs fun act hact => by
        have := List.all_eq_true.mp hcalls act hact
        simp only [Bool.or_eq_true, beq_iff_eq] at this
        rcases this with hnone | hzero
        · simp [hnone]
        · simpa [hzero] using Ne.symm hi
      rw [hidle]
      rfl
  · split at hloop
    · assumption
    · cases hloop

end Grantd.Warden
