import Grantd.Warden.Admission
import Grantd.Warden.Reconcile
import Grantd.Warden.Supervision

/-!
# Restarts

A host on which one warden process follows another. A process can be cut off
between any two steps, with the last write of the state file made or not, and
inside `enforceDeadlines`, which writes after each grant it closes. The slices
outlive the process, and so does the file unless it is lost or damaged.
-/

namespace Grantd.Warden

open Base

-- ---------------------------------------------------------------------------
-- The host
-- ---------------------------------------------------------------------------

structure Host where
  file : StateFile
  state : State

def started (slices : Slices) (clock : Clock) : State where
  shared := ⟨⟨fun _ => newGrant [], 0, .empty, .empty, false⟩, slices⟩
  admits := fun _ => .idle
  attaches := fun _ => .idle
  loop := .idle
  lastPoll := none
  clock
  log := []

/-- Some grant has a new state or deadline, or fewer sessions. -/
def changed (w w' : Warden) : Bool :=
  w.grants.rows.any fun e => (w.heap e.addr).state != (w'.heap e.addr).state ||
    (w.heap e.addr).deadline != (w'.heap e.addr).deadline ||
    (w.heap e.addr).sessions.rows.length != (w'.heap e.addr).sessions.rows.length

def persists (s t : State) : Action → Bool
  | .attach i _ =>
    match t.attaches i with
    | .attached .. => true
    | _ => false
  | .run _ =>
    match s.loop with
    | .enforcing .. | .polled .. | .prune => changed s.shared.warden t.shared.warden
    | .closing [] | .stopped .. => true
    | _ => false
  | _ => false

/-- `enforceDeadlines`, as far as it has gone through the map. -/
def enforceSome (w : Warden) (pick : Nat → Bool) (now : Int64) (mono : Int) : Warden :=
  { w with heap := fun a => if w.mapped a && pick a then enforceDeadline now mono (w.heap a)
      else w.heap a }

inductive HostAction
  /-- One step of the process; `saved` says whether a write of the file succeeds. -/
  | act (a : Action) (saved : Bool)
  /-- The process ends, and another one starts. -/
  | restart
  /-- The process ends inside `enforceDeadlines`. -/
  | cut (pick : Nat → Bool)
  /-- The file is gone, or no longer what was written. -/
  | lose
  | damage
  | reconcile (r : Recovery) (saved : Bool)

def Action.isRun : Action → Bool
  | .run _ => true
  | _ => false

variable (cfg : Config)

/-- `Run` is started once `Reconcile` has returned nil, which is the last one. -/
def hostStep (h : Host) : HostAction → Option Host
  | .act a saved =>
    if a.isRun && !h.state.shared.warden.ready then none
    else (step cfg h.state a).map fun t =>
      ⟨if persists h.state t a && saved then save t.shared.warden else h.file, t⟩
  | .restart => some { h with state := started h.state.shared.slices h.state.clock }
  | .cut pick =>
    match h.state.loop with
    | .enforcing now mono =>
      some ⟨save (enforceSome h.state.shared.warden pick now mono),
        started h.state.shared.slices h.state.clock⟩
    | _ => none
  | .lose => some { h with file := .missing }
  | .damage => some { h with file := .unreadable }
  | .reconcile r saved =>
    if h.state.shared.warden.ready then none
    else match reconcile cfg r h.file h.state.shared.warden with
      | .error _ => some h
      | .ok w => some
        ⟨if saved then save w else h.file,
          { h.state with shared := { h.state.shared with warden := w } }⟩

/-- A host that has just booted: /run is empty, and no session is running. -/
def host : Machine Host HostAction where
  Init h := ∃ clock, h = ⟨.missing, started (fun _ => ⟨false, []⟩) clock⟩
  step := hostStep cfg

-- ---------------------------------------------------------------------------
-- The next advanceClosing
-- ---------------------------------------------------------------------------

def LoopState.todo? : LoopState → Option (List Nat)
  | .closing todo | .sent todo _ _ | .signal todo _ _ | .signalled todo _ | .list todo _
  | .listed todo _ _ | .finalize todo _ | .stopped todo _ => some todo
  | _ => none

def Awaits (s : State) (a : Nat) : Prop :=
  (s.shared.warden.heap a).state ≠ .opened ∧
  ((s.shared.warden.heap a).termSent = true ∨
    (s.shared.warden.heap a).state = .closing ∧ ∀ todo ∈ s.loop.todo?, a ∈ todo)

section
variable {cfg : Config} {s t : State}

theorem loopNext_todo (h : loopNext cfg clock r m last st = some (st', last', m', k)) :
    st'.todo? = st.todo? ∨ st'.todo? = none ∨
    (st = .collect ∧ st'.todo? = some m.warden.closingAddrs) ∨
    ∃ todo b, st = .closing todo ∧ (m'.warden.heap b).termSent = true ∧
      ∀ a ∈ todo, a ≠ b → ∀ todo' ∈ st'.todo?, a ∈ todo' := by
  cases st with
  | collect =>
    simp only [loopNext] at h
    cases h
    exact .inr (.inr (.inl ⟨rfl, rfl⟩))
  | closing todo =>
    cases todo with
    | nil =>
      simp only [loopNext] at h
      cases h
      exact .inr (.inl rfl)
    | cons a as =>
      simp only [loopNext] at h
      split at h
      · cases h
      · rename_i b hb
        cases h
        refine .inr (.inr (.inr ⟨_, b, rfl, ?_, fun c hc hne todo' htodo => ?_⟩))
        · simp only [beginTerm, heap_write, if_true]
          split
          · assumption
          · rfl
        · cases htodo
          obtain ⟨hlt, rfl⟩ := List.getElem?_eq_some_iff.mp hb
          exact (List.mem_cons.mp
            ((List.getElem_cons_eraseIdx_perm hlt).mem_iff.mpr hc)).resolve_left
            hne
  | polling todo =>
    cases todo with
    | nil =>
      simp only [loopNext] at h
      cases h
      exact .inl rfl
    | cons id ids =>
      simp only [loopNext] at h
      split at h <;> cases h
      exact .inl rfl
  | signalled todo a =>
    simp only [loopNext] at h
    split at h
    · cases h
      exact .inl rfl
    · split at h <;> cases h <;> exact .inl rfl
  | enforced | sent | signal =>
    simp only [loopNext] at h
    split at h <;> cases h <;> exact .inl rfl
  | idle | enforcing | polled | expire | expiring | prune | list | listed | finalize | stopped =>
    simp only [loopNext] at h
    cases h
    exact .inl rfl

theorem Moves.termSent_stays (h : Moves cfg s act a g)
    (hne : (s.shared.warden.heap a).state ≠ .opened)
    (hsent : (s.shared.warden.heap a).termSent = true) : g.termSent = true := by
  cases h with
  | term => rfl
  | close hopen => exact absurd hopen hne
  | same | retrack | shorten | attach | prune | remaining | closed => exact hsent

theorem Awaits.step (hs : Awaits s a) (hI : Inv s) (ha : a < s.shared.warden.next)
    (h : step cfg s act = some t) : Awaits t a := by
  obtain ⟨hne, hawaits⟩ := hs
  have hmoves : Moves cfg s act a (t.shared.warden.heap a) := (step_section cfg h).moves cfg ha
  refine ⟨fun hopen => hne (hmoves.opened hopen), ?_⟩
  rcases hawaits with hsent | ⟨hclosing, htodo⟩
  · exact .inl (hmoves.termSent_stays hne hsent)
  · -- Only the object at the head of the loop's list is closed, and this one is behind it.
    have hstays : (t.shared.warden.heap a).state = .closing := by
      rcases hmoves.closing_cases hclosing with hstays | ⟨todo, r, hst, -⟩
      · exact hstays
      · have hmem : a ∈ todo := htodo todo (by rw [hst]; rfl)
        have hnodup := hI.distinct
        rw [hst] at hnodup
        exact absurd hmem (List.nodup_cons.mp hnodup).1
    rcases step_loop h with ⟨hloop, -⟩ | ⟨r, m, k, -, hshared, hnext⟩
    · exact .inr ⟨hstays, by rwa [hloop]⟩
    · rcases loopNext_todo hnext with hsame | hnone | ⟨-, hall⟩ | ⟨todo, b, hst, hsent, hrest⟩
      · exact .inr ⟨hstays, by rwa [hsame]⟩
      · exact .inr ⟨hstays, by simp [hnone]⟩
      · refine .inr ⟨hstays, fun todo' htodo' => ?_⟩
        rw [hall] at htodo'
        cases htodo'
        obtain ⟨e, he, rfl⟩ := mapped_iff.mp (hI.objects.unmapped a ha (by simp [hclosing]))
        exact List.mem_map.mpr ⟨e, List.mem_filter.mpr ⟨he, by simpa using hclosing⟩, rfl⟩
      · by_cases hab : a = b
        · refine .inl ?_
          rw [hshared, Shared.kill_warden, hab]
          exact hsent
        · exact .inr ⟨hstays, hrest a (htodo todo (by rw [hst]; rfl)) hab⟩

/-- A grant that awaits its termination has been got to when `advanceClosing`
is through. -/
theorem Awaits.run (hs : Awaits s a) (hI : Inv s) (ha : a < s.shared.warden.next)
    (hrun : (machine cfg).Run (fun _ _ => True) s t) (hdone : t.loop = .closing []) :
    (t.shared.warden.heap a).termSent = true := by
  have hall : Awaits t a ∧ Inv t ∧ a < t.shared.warden.next := by
    clear hdone
    induction hrun with
    | refl => exact ⟨hs, hI, ha⟩
    | step _ _ hstep ih =>
      obtain ⟨hw, hI', hlt⟩ := ih
      exact ⟨hw.step hI' hlt hstep, hI'.step hstep,
        hlt.trans_le (step_section cfg hstep).map.next_le⟩
  rcases hall.1.2 with hsent | ⟨-, htodo⟩
  · exact hsent
  · exact absurd (htodo [] (by rw [hdone]; rfl)) List.not_mem_nil

end

-- ---------------------------------------------------------------------------
-- Every state a host can be in
-- ---------------------------------------------------------------------------

/-- A process that has not reconciled: every call it has had was refused. -/
structure Dormant (s : State) : Prop where
  ready : s.shared.warden.ready = false
  next : s.shared.warden.next = 0
  grants : s.shared.warden.grants = .empty
  pending : s.shared.warden.pending = .empty
  admits : ∀ n, s.admits n = .idle ∨ s.admits n = .refused .notReady
  attaches : ∀ i, s.attaches i = .idle ∨ s.attaches i = .refused .notReady
  loop : s.loop = .idle
  log : s.log = []

def Slices.Named (cfg : Config) (k : Slices) : Prop :=
  ∀ u, (k u).tasks ≠ [] →
    (k u).present = true ∧ ∃ id, Protocol.validGrantID id = true ∧ u = sliceUnit cfg id

structure Host.Ok (cfg : Config) (h : Host) : Prop where
  inv : Inv h.state
  journal : Journal cfg h.state
  dormant : h.state.shared.warden.ready = false → Dormant h.state
  file : (h.file.grants.map (·.id)).Nodup
  slices : h.state.shared.slices.Named cfg

theorem Dormant.started (slices : Slices) (clock : Clock) : Dormant (started slices clock) :=
  ⟨rfl, rfl, rfl, rfl, fun _ => .inl rfl, fun _ => .inl rfl, rfl, rfl⟩

section
variable {cfg : Config} {s t : State}

theorem Dormant.attaches_placing? (hs : Dormant s) (i : Nat) : (s.attaches i).placing? = none := by
  rcases hs.attaches i with h | h <;> rw [h] <;> rfl

theorem Dormant.inv (hs : Dormant s) : Inv s := by
  refine ⟨⟨?_, ?_, ?_, ?_⟩, ?_, ?_, ?_⟩
  · simp [hs.grants, Table.empty]
  · simp [hs.next]
  · simp [hs.next]
  · simp [hs.next]
  · simp [hs.attaches_placing?]
  · simp [hs.loop, LoopState.addrs]
  · simp [hs.loop, LoopState.addrs]

theorem Dormant.journal (hs : Dormant s) : Journal cfg s := by
  refine ⟨fun n => ?_, ?_, ?_, ?_, ?_, ?_, fun i => ?_⟩
  · rcases hs.admits n with h | h <;> rw [h] <;> trivial
  · simp [hs.log]
  · simp [hs.log]
  · simp [hs.pending, Table.empty]
  · simp [hs.log]
  · simp [hs.log]
  · rcases hs.attaches i with h | h <;> rw [h] <;> trivial

theorem Dormant.step (hs : Dormant s) (h : step cfg s act = some t) (hact : act.isRun = false) :
    Dormant t := by
  obtain ⟨hready, hnext, hgrants, hpending, hadmits, hattaches, hloop, hlog⟩ := hs
  cases act with
  | tick c | exit unit pid =>
    cases h
    exact ⟨hready, hnext, hgrants, hpending, hadmits, hattaches, hloop, hlog⟩
  | fork unit parent child | collect unit =>
    simp only [Warden.step] at h
    split at h <;> cases h
    exact ⟨hready, hnext, hgrants, hpending, hadmits, hattaches, hloop, hlog⟩
  | admitStart n c =>
    simp only [Warden.step] at h
    split at h <;> cases h
    refine ⟨hready, hnext, hgrants, hpending, fun k => ?_, hattaches, hloop, hlog⟩
    simp only [Function.update_apply]
    split
    · exact .inr (by simp [admitStart, hready])
    · exact hadmits k
  | attachStart i c =>
    simp only [Warden.step] at h
    split at h <;> cases h
    refine ⟨hready, hnext, hgrants, hpending, hadmits, fun k => ?_, hloop, hlog⟩
    simp only [Function.update_apply]
    split
    · exact .inr (by simp [attachStart, hready])
    · exact hattaches k
  | admitStep n r => rcases hadmits n with hst | hst <;> simp [Warden.step, hst, admitNext] at h
  | attach i r => rcases hattaches i with hst | hst <;> simp [Warden.step, hst, attachNext] at h
  | run r => cases hact

theorem Section.ready_eq (h : Section cfg s act w) : w.ready = s.shared.warden.ready := by
  cases h with
  | record _ hw =>
    obtain ⟨-, rfl⟩ := recordPending_eq_ok hw
    rfl
  | track _ hw =>
    obtain ⟨-, -, rfl⟩ | ⟨-, -, rfl⟩ := track_eq_ok hw <;> rfl
  | attach _ hw =>
    obtain ⟨-, rfl⟩ := attachSession_eq_ok hw
    rfl
  | poll =>
    unfold applyPoll
    split
    · rfl
    · split <;> rfl
  | none | take | enforce | expire | prune | term | remaining | close | forget => rfl

end

theorem save_nodup {w : Warden} (h : ∀ e ∈ w.grants.rows, (w.heap e.addr).id = e.id) :
    ((save w).grants.map (·.id)).Nodup := by
  have hids : (w.grants.rows.map fun e => (w.heap e.addr).id) = w.grants.rows.map (·.id) :=
    List.map_congr_left h
  have hgrants : (save w).grants.Perm (w.grants.rows.map fun e => (w.heap e.addr).saved) := by
    have hsome (l : List SavedGrant) : (l.map some).reduceOption = l := by
      change (l.map some).filterMap id = l
      simp
    simpa [save, StateFile.grants, hsome] using List.perm_insertionSort ..
  refine (hgrants.map _).nodup_iff.mpr ?_
  rw [List.map_map]
  exact hids ▸ w.grants.distinct

theorem enforceDeadline_id (now : Int64) (mono : Int) (g : Grant) :
    (enforceDeadline now mono g).id = g.id := by
  unfold enforceDeadline closeLocked
  split
  · split <;> rfl
  · rfl

theorem enforceSome_id (w : Warden) (pick : Nat → Bool) (now : Int64) (mono : Int) (a : Nat) :
    ((enforceSome w pick now mono).heap a).id = (w.heap a).id := by
  simp only [enforceSome]
  split
  · exact enforceDeadline_id ..
  · rfl

section
variable {cfg : Config} {s t : State}

theorem parseKeyID_valid {keyID grantID agentID : GoString}
    (h : parseKeyID keyID = some (grantID, agentID)) : Protocol.validGrantID grantID = true := by
  unfold parseKeyID at h
  split at h
  · split at h <;> cases h
    rename_i hvalid
    simp only [Bool.and_eq_true] at hvalid
    exact hvalid.1.2
  · cases h

theorem Journal.startsScope_valid {id : GoString} (hJ : Journal cfg s)
    (h : id ∈ startsScope s act) : Protocol.validGrantID id = true := by
  unfold startsScope at h
  split at h
  · rename_i i r
    split at h
    · rename_i j hst
      split at h <;> cases h
      have hcall := hJ.attaches i
      rw [hst] at hcall
      obtain ⟨adm, heq, hsub⟩ := hJ.took i _ hcall.1
      obtain ⟨agentID, hkey⟩ :=
        (hJ.admitted j.job.p.call adm (hsub.subset (by simp))).1.entered.keyID
      have hgrant : j.job.p.grantID = adm.grantID := congrArg Pending.grantID heq
      exact hgrant ▸ parseKeyID_valid hkey
    · cases h
  · cases h

theorem SliceMoves.present (h : SliceMoves cfg s act k)
    (hs : ∀ u, (s.shared.slices u).tasks ≠ [] → (s.shared.slices u).present = true)
    (hne : (k u).tasks ≠ []) : (k u).present = true := by
  cases h with
  | same => exact hs u hne
  | start =>
    simp only [Slices.start, Function.update_apply] at hne ⊢
    split
    · rfl
    · rename_i hu
      exact hs u (by simpa [hu] using hne)
  | place | fork =>
    simp only [Slices.place, Function.update_apply] at hne ⊢
    split
    · rfl
    · rename_i hu
      exact hs u (by simpa [hu] using hne)
  | leave hsub =>
    have hold := hs u (tasksOf_tasks_ne _ hsub hne)
    simp only [Slices.tasksOf, Function.update_apply]
    split
    · rename_i hu
      exact hu ▸ hold
    · exact hold
  | stop =>
    simp only [Slices.stop, Function.update_apply] at hne ⊢
    split at hne
    · exact absurd rfl hne
    · rename_i hu
      simpa [hu] using hs u hne

theorem Slices.Named.step (hs : s.shared.slices.Named cfg) (hJ : Journal cfg s)
    (h : step cfg s act = some t) : t.shared.slices.Named cfg := by
  intro u hne
  have hmoves := step_slices h
  refine ⟨hmoves.present (fun u hu => (hs u hu).1) hne, ?_⟩
  rcases hmoves.tasks hne with hold | ⟨id, hid, rfl⟩
  · exact (hs u hold).2
  · exact ⟨id, hJ.startsScope_valid hid, rfl⟩

def State.reconciled (s : State) (w : Warden) : State :=
  { s with shared := { s.shared with warden := w } }

theorem reconcile_objects {w w' : Warden} (h : reconcile cfg r f w = .ok w')
    (hnext : w.next = 0) : ∀ a < w'.next, w'.mapped a = true ∧
      ((w'.heap a).state = .opened ∧ (w'.heap a).deadlineMono.isSome ∨
        (w'.heap a).state = .closing) := by
  obtain ⟨-, -, -, hnext', hrows, hheap⟩ := reconcile_eq_ok h
  intro a ha
  have hlt : a < (reconcileIDs cfg r f).length := by omega
  have hmem : (⟨(reconcileIDs cfg r f)[a], a⟩ : Entry) ∈ w'.grants.rows := by
    simp [hrows, hnext]
  refine ⟨mapped_iff.mpr ⟨_, hmem, rfl⟩, ?_⟩
  rw [hheap _ hmem]
  rcases reconcileGrant_cases (r := r) _ _ with ⟨info, -, heq⟩ | ⟨-, reason, heq⟩
  · exact .inl ⟨by rw [heq], by rw [heq]; rfl⟩
  · exact .inr (by rw [heq]; rfl)

theorem reconcile_entries {w w' : Warden} (h : reconcile cfg r f w = .ok w') :
    ∀ e ∈ w'.grants.rows, e.addr < w'.next ∧ (w'.heap e.addr).id = e.id := by
  obtain ⟨-, -, -, hnext, hrows, hheap⟩ := reconcile_eq_ok h
  intro e he
  obtain ⟨hle, hget⟩ := (hrows e).mp he
  obtain ⟨hlt, -⟩ := List.getElem?_eq_some_iff.mp hget
  refine ⟨by omega, ?_⟩
  rw [hheap e he]
  exact reconcileGrant_id r fun g hg => Table.key_get? hg

theorem Dormant.inv_reconciled (hs : Dormant s)
    (h : reconcile cfg r f s.shared.warden = .ok w) : Inv (s.reconciled w) := by
  have hobjects := reconcile_objects h hs.next
  refine ⟨⟨reconcile_entries h, fun a ha _ => (hobjects a ha).1, fun a ha hc => ?_,
    fun a ha ho => ?_⟩, ?_, ?_, ?_⟩
  · rcases (hobjects a ha).2 with ⟨hopen, -⟩ | hclosing
    · cases hopen.symm.trans hc
    · cases hclosing.symm.trans hc
  · rcases (hobjects a ha).2 with ⟨-, hd⟩ | hclosing
    · exact hd
    · cases hclosing.symm.trans ho
  · simp [State.reconciled, hs.attaches_placing?]
  · simp [State.reconciled, hs.loop, LoopState.addrs]
  · simp [State.reconciled, hs.loop, LoopState.addrs]

theorem Dormant.journal_reconciled (hs : Dormant s)
    (h : reconcile cfg r f s.shared.warden = .ok w) : Journal cfg (s.reconciled w) := by
  have hJ : Journal cfg s := hs.journal
  obtain ⟨-, -, hpending, -, -, -⟩ := reconcile_eq_ok h
  exact ⟨hJ.admits, hJ.admitted, hJ.unique, by simpa [State.reconciled, hpending] using hJ.pending,
    hJ.took, hJ.once, hJ.attaches⟩

end

section
variable {cfg : Config}

theorem Host.Ok.of_dormant {h : Host} (hd : Dormant h.state)
    (hf : (h.file.grants.map (·.id)).Nodup) (hk : h.state.shared.slices.Named cfg) : h.Ok cfg :=
  ⟨hd.inv, hd.journal, fun _ => hd, hf, hk⟩

theorem Host.Ok.step {h h' : Host} (hs : h.Ok cfg) (hstep : hostStep cfg h act = some h') :
    h'.Ok cfg := by
  cases act with
  | act a saved =>
    simp only [hostStep] at hstep
    split at hstep
    · cases hstep
    · rename_i hrun
      obtain ⟨t, ht, rfl⟩ := Option.map_eq_some_iff.mp hstep
      have hinv : Inv t := hs.inv.step ht
      refine ⟨hinv, hs.journal.step ht, fun hready => ?_, ?_, hs.slices.step hs.journal ht⟩
      · have hsame : t.shared.warden.ready = h.state.shared.warden.ready :=
          (step_section cfg ht).ready_eq
        have hdown : h.state.shared.warden.ready = false := hsame ▸ hready
        exact (hs.dormant hdown).step ht (by simpa [hdown] using hrun)
      · simp only
        split
        · exact save_nodup fun e he => (hinv.objects.entries e he).2
        · exact hs.file
  | restart =>
    cases hstep
    exact .of_dormant (.started ..) hs.file hs.slices
  | cut pick =>
    simp only [hostStep] at hstep
    split at hstep <;> cases hstep
    refine .of_dormant (.started ..) (save_nodup fun e he => ?_) hs.slices
    rw [enforceSome_id]
    exact (hs.inv.objects.entries e he).2
  | lose | damage =>
    cases hstep
    exact ⟨hs.inv, hs.journal, hs.dormant, .nil, hs.slices⟩
  | reconcile r saved =>
    simp only [hostStep] at hstep
    split at hstep
    · cases hstep
    · rename_i hdown
      have hd := hs.dormant (by simpa using hdown)
      split at hstep
      · cases hstep
        exact hs
      · rename_i w hw
        cases hstep
        refine ⟨hd.inv_reconciled hw, hd.journal_reconciled hw, fun hready => ?_, ?_, hs.slices⟩
        · cases hready.symm.trans (reconcile_eq_ok hw).2.1
        · simp only
          split
          · exact save_nodup fun e he => (reconcile_entries hw e he).2
          · exact hs.file

theorem Host.Ok.reachable {h : Host} (hs : (host cfg).Reachable ok h) : h.Ok cfg := by
  refine hs.invariant (I := Host.Ok cfg) ?_ fun _ _ _ hok _ hstep => hok.step hstep
  rintro _ ⟨clock, rfl⟩
  exact .of_dormant (.started ..) .nil fun u hne => absurd rfl hne

/-- `Initial` is what `Reconcile` leaves behind when it sees every directory and
no call came before it. -/
theorem reconcile_initial {h : Host} (hs : (host cfg).Reachable ok h)
    (hdown : h.state.shared.warden.ready = false)
    (hr : reconcile cfg r h.file h.state.shared.warden = .ok w)
    (hdirs : ∀ u, (h.state.shared.slices u).present = true → u ∈ r.dirs)
    (hadmits : ∀ n, h.state.admits n = .idle) (hattaches : ∀ i, h.state.attaches i = .idle) :
    Initial cfg (h.state.reconciled w) := by
  have hok := Host.Ok.reachable hs
  have hd := hok.dormant hdown
  obtain ⟨-, hready, hpending, -, hrows, -⟩ := reconcile_eq_ok hr
  refine ⟨hready, reconcile_entries hr, reconcile_objects hr hd.next, fun u hne => ?_,
    hpending.trans hd.pending, hadmits, hattaches, hd.loop, hd.log⟩
  obtain ⟨hpresent, id, hvalid, rfl⟩ := hok.slices u hne
  obtain ⟨k, hk⟩ := List.mem_iff_getElem?.mp
    (mem_reconcileIDs (f := h.file) |>.mpr ⟨hvalid, .inl (hdirs _ hpresent)⟩)
  exact ⟨⟨id, k⟩, (hrows _).mpr (by simp [hd.next, hk]), rfl⟩

/-- Wherever a warden was cut off and whatever its file then holds, the next one
refuses every call until `Reconcile` has returned nil. From then on every grant
that has a slice or is in the file is tracked, once: Open with the signer's
deadline if the signer says so, and with those recorded sessions that are still
the same process; and otherwise Closing, to be terminated in the next round. -/
theorem reconcile_adopts {h : Host} (hs : (host cfg).Reachable (fun _ _ => True) h)
    (hdown : h.state.shared.warden.ready = false) :
    (∀ n user, h.state.admits n ≠ .admitted user) ∧
    (∀ i j sess, h.state.attaches i ≠ .attached j sess) ∧
    ∀ r w, reconcile cfg r h.file h.state.shared.warden = .ok w →
      (∀ id, (∃ e ∈ w.grants.rows, e.id = id) ↔ Protocol.validGrantID id = true ∧
        (sliceUnit cfg id ∈ r.dirs ∨ ∃ g ∈ h.file.grants, g.id = id)) ∧
      ∀ e ∈ w.grants.rows, (w.heap e.addr).id = e.id ∧
        (∀ e' ∈ w.grants.rows, e'.id = e.id ∨ e'.addr = e.addr → e' = e) ∧
        ((w.heap e.addr).state = .opened ↔ ∃ info, r.Live e.id info) ∧
        (∀ info, r.Live e.id info → (w.heap e.addr).deadline = info.expiresAt) ∧
        ((w.heap e.addr).state = .opened → ∀ sess, sess ∈ (w.heap e.addr).sessions.rows ↔
          (∃ g ∈ h.file.grants, g.id = e.id ∧ ∃ tab ∈ g.sessions, sess ∈ tab.rows) ∧
            r.alive e.id sess.pid = some sess.startTime) ∧
        ((w.heap e.addr).state ≠ .opened →
          (w.heap e.addr).state = .closing ∧ (w.heap e.addr).termSent = false ∧
          ∀ t, (machine cfg).Run (fun _ _ => True) (h.state.reconciled w) t →
            t.loop = .closing [] → (t.shared.warden.heap e.addr).termSent = true) := by
  have hok := Host.Ok.reachable hs
  have hd := hok.dormant hdown
  refine ⟨fun n user hn => ?_, fun i j sess hi => ?_, fun r w hr => ⟨fun id => ?_, fun e he => ?_⟩⟩
  · rcases hd.admits n with h | h <;> cases h.symm.trans hn
  · rcases hd.attaches i with h | h <;> cases h.symm.trans hi
  · obtain ⟨-, -, -, -, hrows, -⟩ := reconcile_eq_ok hr
    rw [← mem_reconcileIDs, List.mem_iff_getElem?]
    constructor
    · rintro ⟨e, he, rfl⟩
      exact ⟨_, ((hrows e).mp he).2⟩
    · rintro ⟨k, hk⟩
      exact ⟨⟨id, k⟩, (hrows _).mpr (by simp [hd.next, hk]), rfl⟩
  · have hentries := reconcile_entries hr
    obtain ⟨-, -, -, -, hrows, hheap⟩ := reconcile_eq_ok hr
    have hvalid : Protocol.validGrantID e.id = true :=
      (mem_reconcileIDs.mp (List.mem_of_getElem? ((hrows e).mp he).2)).1
    rw [hheap e he]
    refine ⟨hheap e he ▸ (hentries e he).2, fun e' he' hsame => ?_, reconcileGrant_opened,
      fun info hlive => reconcileGrant_deadline hlive, fun hopen sess => ?_, fun hne => ?_⟩
    · have hid : e'.id = e.id := hsame.elim id fun haddr => by
        rw [← (hentries e he).2, ← (hentries e' he').2, haddr]
      exact List.inj_on_of_nodup_map w.grants.distinct he' he hid
    · rw [reconcileGrant_sessions hopen, mem_found_sessions hok.file hvalid]
    · obtain ⟨hclosing, hsent⟩ := reconcileGrant_closing hne
      refine ⟨hclosing, hsent, fun t hrun hdone => ?_⟩
      have hawaits : Awaits (h.state.reconciled w) e.addr := by
        refine ⟨by simp [State.reconciled, hheap e he, hclosing], .inr ⟨?_, ?_⟩⟩
        · simp [State.reconciled, hheap e he, hclosing]
        · simp [State.reconciled, hd.loop, LoopState.todo?]
      exact hawaits.run (hd.inv_reconciled hr) (hentries e he).1 hrun hdone

end

namespace Sample

def booted : Host := ⟨.missing, started (fun _ => ⟨false, []⟩) ⟨1000, 0⟩⟩

def recovery : Recovery where
  ping := true
  dirs := [lit "user.slice", sliceUnit config grantID]
  now := 1100
  answer id := if id = grantID then .ok info else .error .unknown
  mono _ := 0
  alive _ pid := if pid = 4242 then some 77 else none

def killed : List HostAction :=
  .reconcile { recovery with dirs := [] } true ::
    (admission 0 4242 ++ tracking 0 4242 ++ placing 0 4242 ++ [Action.attach 0 (reading 4242)]).map
      (.act · true) ++ [.restart]

end Sample

/-- The second one keeps the visitor's session, until the same deadline. -/
theorem reconcile_adopts_sample : ∃ h, (host Sample.config).Reachable (fun _ _ => True) h ∧
    h.state.shared.warden.ready = false ∧ ∃ w e,
      reconcile Sample.config Sample.recovery h.file h.state.shared.warden = .ok w ∧
      e ∈ w.grants.rows ∧ e.id = Sample.grantID ∧ (w.heap e.addr).state = .opened ∧
      (w.heap e.addr).deadline = 2000 ∧ ∃ sess ∈ (w.heap e.addr).sessions.rows,
        sess.pid = 4242 := by
  have hexec : ((host Sample.config).exec (fun _ _ => True) Sample.booted Sample.killed).any
      (fun h => !h.state.shared.warden.ready && h.file.grants.any fun g =>
        g.id == Sample.grantID && g.sessions.any fun tab => tab.rows.any fun sess =>
          sess.pid == 4242 && sess.startTime == 77) = true := by
    decide +kernel
  obtain ⟨h, hh, hprop⟩ := Option.any_eq_true .. |>.mp hexec
  simp only [Bool.and_eq_true, Bool.not_eq_true', List.any_eq_true, Option.any_eq_true,
    beq_iff_eq] at hprop
  obtain ⟨hdown, g, hg, hid, tab, htab, sess, hsess, hpid, hstart⟩ := hprop
  have hreach : (host Sample.config).Reachable (fun _ _ => True) h :=
    ⟨Sample.booted, ⟨_, rfl⟩, .of_exec hh⟩
  have hlive : Sample.recovery.Live Sample.grantID Sample.info := by
    refine ⟨?_, ?_, ?_⟩ <;> decide
  obtain ⟨-, -, hall⟩ := reconcile_adopts hreach hdown
  obtain ⟨htracked, hgrants⟩ := hall Sample.recovery _ rfl
  obtain ⟨e, he, heid⟩ := (htracked Sample.grantID).mpr ⟨by decide, .inr ⟨g, hg, hid⟩⟩
  obtain ⟨-, -, hopen, hdeadline, hsessions, -⟩ := hgrants e he
  have hopened := hopen.mpr ⟨_, heid ▸ hlive⟩
  refine ⟨h, hreach, hdown, _, e, rfl, he, heid, hopened, hdeadline _ (heid ▸ hlive),
    sess, ?_, hpid⟩
  refine (hsessions hopened sess).mpr ⟨⟨g, hg, hid.trans heid.symm, tab, htab, hsess⟩, ?_⟩
  rw [hpid, hstart]
  rfl

end Grantd.Warden
