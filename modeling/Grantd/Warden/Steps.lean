import Grantd.Warden.System

/-!
# What one step of the warden does

Every step runs at most one section under the lock. `Section` lists them with
the place in the source they are run from, and `step_section` says that there
are no others; what follows about the objects and the map is proved once, for
each section.
-/

namespace Grantd.Warden

open Base

variable (cfg : Config)

/-- The section an action runs in a state, and what it makes of the warden. -/
inductive Section (s : State) : Action → Warden → Prop
  | none : Section s act s.shared.warden
  | record {id : GoString} : s.admits n = .checked c id sshd info →
      s.shared.warden.recordPending ⟨sshd, id, c.user, info.expiresAt, s.clock.mono, n⟩ = .ok w →
      Section s (.admitStep n r) w
  | take : s.attaches i = .parent c sshd →
      Section s (.attach i r) (s.shared.warden.takePending sshd.pid).2
  | track : s.attaches i = .timed job now →
      s.shared.warden.track job.p.grantID job.info.expiresAt s.clock.mono
        (timeLeft job.info.expiresAt now) = .ok (a, w) →
      Section s (.attach i r) w
  | attach : s.attaches i = .placed j →
      s.shared.warden.attachSession j.addr j.job.p.grantID (j.session cfg) = .ok w →
      Section s (.attach i r) w
  | enforce : s.loop = .enforcing now mono →
      Section s (.run r) (s.shared.warden.enforceDeadlines now mono)
  | poll {id : GoString} : s.loop = .polled todo id answer →
      Section s (.run r) (s.shared.warden.applyPoll s.clock id answer)
  | expire : s.loop = .expiring now → Section s (.run r) (s.shared.warden.expirePending cfg now)
  | prune : s.loop = .prune → Section s (.run r) (s.shared.warden.pruneSessions alive)
  | term : s.loop = .closing todo → a ∈ todo →
      Section s (.run r) (s.shared.warden.beginTerm s.clock.mono a).2
  | remaining : s.loop = .listed todo a pids →
      Section s (.run r) (s.shared.warden.setRemaining a pids)
  | close : s.loop = .stopped todo a →
      Section s (.run r) (s.shared.warden.markClosed s.clock.mono a)
  | forget : s.loop = .closing [] → Section s (.run r) (s.shared.warden.forget s.clock.mono)

theorem admitNext_section (h : admitNext n s.clock r s.shared (s.admits n) = some (st, m, es)) :
    Section cfg s (.admitStep n r) m.warden := by
  cases hst : s.admits n with
  | idle => simp [hst, admitNext] at h
  | admitted user => simp [hst, admitNext] at h
  | refused e => simp [hst, admitNext] at h
  | called c grantID =>
    simp only [hst, admitNext] at h
    split at h <;> cases h <;> exact .none
  | parent c grantID sshd =>
    simp only [hst, admitNext] at h
    split at h <;> cases h <;> exact .none
  | allowed c grantID sshd =>
    simp only [hst, admitNext] at h
    cases h
    exact .none
  | answered c grantID sshd answer =>
    simp only [hst, admitNext] at h
    split at h <;> cases h <;> exact .none
  | checked c grantID sshd info =>
    simp only [hst, admitNext] at h
    split at h
    · cases h
      exact .none
    · rename_i w hw
      cases h
      exact .record hst hw

theorem attachNext_section
    (h : attachNext cfg i s.clock r s.shared (s.attaches i) = some (st, m, es)) :
    Section cfg s (.attach i r) m.warden := by
  cases hst : s.attaches i with
  | idle => simp [hst, attachNext] at h
  | attached j sess => simp [hst, attachNext] at h
  | refused e => simp [hst, attachNext] at h
  | called c =>
    simp only [hst, attachNext] at h
    split at h <;> cases h <;> exact .none
  | parent c sshd =>
    simp only [hst, attachNext] at h
    cases h
    exact .take hst
  | taken c sshd p =>
    simp only [hst, attachNext] at h
    split at h <;> cases h <;> exact .none
  | valid c sshd p takenAt =>
    simp only [hst, attachNext] at h
    cases h
    exact .none
  | answered c sshd p takenAt answer =>
    simp only [hst, attachNext] at h
    split at h <;> cases h <;> exact .none
  | checked job =>
    simp only [hst, attachNext] at h
    split at h <;> cases h <;> exact .none
  | timed job now =>
    simp only [hst, attachNext] at h
    split at h
    · cases h
      exact .none
    · rename_i a w hw
      cases h
      exact .track hst hw
  | tracked j =>
    simp only [hst, attachNext] at h
    split at h <;> cases h <;> exact .none
  | sliceFailed j =>
    simp only [hst, attachNext] at h
    split at h <;> cases h <;> exact .none
  | sliced j =>
    simp only [hst, attachNext] at h
    split at h <;> cases h <;> exact .none
  | readBack j tries =>
    simp only [hst, attachNext] at h
    split at h
    · cases h
      exact .none
    · split at h
      · cases h
        exact .none
      · split at h <;> cases h <;> exact .none
  | lost j =>
    simp only [hst, attachNext] at h
    cases h
    exact .none
  | placed j =>
    simp only [hst, attachNext] at h
    split at h
    · cases h
      exact .none
    · rename_i w hw
      cases h
      exact .attach hst hw

theorem loopNext_section
    (h : loopNext cfg s.clock r s.shared s.lastPoll s.loop = some (loop, last, m, k)) :
    Section cfg s (.run r) m.warden := by
  cases hst : s.loop with
  | idle => simp only [hst, loopNext] at h; cases h; exact .none
  | enforcing now mono => simp only [hst, loopNext] at h; cases h; exact .enforce hst
  | enforced => simp only [hst, loopNext] at h; split at h <;> cases h <;> exact .none
  | polling todo =>
    cases todo with
    | nil => simp only [hst, loopNext] at h; cases h; exact .none
    | cons id ids => simp only [hst, loopNext] at h; split at h <;> cases h; exact .none
  | polled todo id answer => simp only [hst, loopNext] at h; cases h; exact .poll hst
  | expire => simp only [hst, loopNext] at h; cases h; exact .none
  | expiring now => simp only [hst, loopNext] at h; cases h; exact .expire hst
  | prune => simp only [hst, loopNext] at h; cases h; exact .prune hst
  | collect => simp only [hst, loopNext] at h; cases h; exact .none
  | closing todo =>
    cases todo with
    | nil => simp only [hst, loopNext] at h; cases h; exact .forget hst
    | cons a as =>
      simp only [hst, loopNext] at h
      split at h
      · cases h
      · rename_i a' ha'
        cases h
        exact .term hst (List.mem_of_getElem? ha')
  | sent todo a elapsed => simp only [hst, loopNext] at h; split at h <;> cases h <;> exact .none
  | signal todo a elapsed => simp only [hst, loopNext] at h; split at h <;> cases h <;> exact .none
  | signalled todo a =>
    simp only [hst, loopNext] at h
    split at h
    · cases h
      exact .none
    · split at h <;> cases h <;> exact .none
  | list todo a => simp only [hst, loopNext] at h; cases h; exact .none
  | listed todo a pids => simp only [hst, loopNext] at h; cases h; exact .remaining hst
  | finalize todo a => simp only [hst, loopNext] at h; cases h; exact .none
  | stopped todo a => simp only [hst, loopNext] at h; cases h; exact .close hst

theorem step_section (h : step cfg s act = some t) : Section cfg s act t.shared.warden := by
  cases act with
  | tick c => cases h; exact .none
  | admitStart n c =>
    simp only [step] at h
    split at h <;> cases h
    exact .none
  | attachStart i c =>
    simp only [step] at h
    split at h <;> cases h
    exact .none
  | admitStep n r =>
    simp only [step] at h
    split at h
    · cases h
    · rename_i hnext
      cases h
      exact admitNext_section cfg hnext
  | attach i r =>
    simp only [step] at h
    split at h
    · cases h
    · rename_i hnext
      cases h
      exact attachNext_section cfg hnext
  | run r =>
    simp only [step] at h
    split at h
    · cases h
    · rename_i hnext
      cases h
      simp only [Shared.kill_warden]
      exact loopNext_section cfg hnext
  | exit unit pid => cases h; exact .none
  | fork unit parent child =>
    simp only [step] at h
    split at h <;> cases h
    exact .none
  | collect unit =>
    simp only [step] at h
    split at h <;> cases h
    exact .none

-- ---------------------------------------------------------------------------
-- Objects and the map
-- ---------------------------------------------------------------------------

theorem addr?_eq_some {w : Warden} {id : GoString} :
    w.addr? id = some a ↔ (⟨id, a⟩ : Entry) ∈ w.grants.rows := by
  constructor
  · intro h
    obtain ⟨e, he, rfl⟩ := Option.map_eq_some_iff.mp h
    obtain ⟨hmem, rfl⟩ := Table.get?_eq_some.mp he
    exact hmem
  · intro h
    have hget : w.grants.get? id = some ⟨id, a⟩ := Table.get?_eq_some.mpr ⟨h, rfl⟩
    simp [addr?, hget]

theorem mapped_iff {w : Warden} : w.mapped a = true ↔ ∃ e ∈ w.grants.rows, e.addr = a := by
  simp [mapped]

@[simp] theorem heap_write (w : Warden) :
    (w.write a g).heap b = if b = a then g else w.heap b := by
  simp [write, Function.update_apply]

@[simp] theorem heap_forEach (w : Warden) :
    (w.forEach f).heap a = if w.mapped a then f (w.heap a) else w.heap a := rfl

@[simp] theorem write_grants (w : Warden) : (w.write a g).grants = w.grants := rfl
@[simp] theorem write_next (w : Warden) : (w.write a g).next = w.next := rfl
@[simp] theorem forEach_grants (w : Warden) : (w.forEach f).grants = w.grants := rfl
@[simp] theorem forEach_next (w : Warden) : (w.forEach f).next = w.next := rfl

theorem track_eq_ok {w : Warden} {id : GoString}
    (h : w.track id expiresAt mono left = .ok (a, w')) :
    (w.addr? id = some a ∧ (w.heap a).state = .opened ∧
      w' = w.write a (setDeadline expiresAt mono left (w.heap a))) ∨
    (w.addr? id = none ∧ a = w.next ∧ w' = { w with
      heap := Function.update w.heap w.next (setDeadline expiresAt mono left (newGrant id))
      next := w.next + 1
      grants := w.grants.put ⟨id, w.next⟩ }) := by
  unfold track at h
  split at h
  · rename_i a' haddr
    split at h <;> cases h
    rename_i hopen
    exact .inl ⟨haddr, hopen, rfl⟩
  · rename_i hnone
    cases h
    exact .inr ⟨hnone, rfl, rfl⟩

theorem attachSession_eq_ok {w : Warden} {id : GoString}
    (h : w.attachSession a id sess = .ok w') :
    (w.heap a).state = .opened ∧
      w' = w.write a { w.heap a with sessions := (w.heap a).sessions.put sess } := by
  unfold attachSession at h
  split at h <;> cases h
  rename_i hopen
  exact ⟨hopen, rfl⟩

theorem recordPending_eq_ok {w : Warden} (h : w.recordPending p = .ok w') :
    w.notOpen p.grantID = none ∧ w' = { w with pending := w.pending.put p } := by
  unfold recordPending at h
  split at h <;> cases h
  rename_i hopen
  exact ⟨hopen, rfl⟩

/-- What an action can make of the object at `a`, and from where. -/
inductive Moves (s : State) : Action → Nat → Grant → Prop
  | same : Moves s act a (s.shared.warden.heap a)
  | retrack : s.attaches i = .timed job now → s.shared.warden.addr? job.p.grantID = some a →
      (s.shared.warden.heap a).state = .opened →
      Moves s (.attach i r) a (setDeadline job.info.expiresAt s.clock.mono
        (timeLeft job.info.expiresAt now) (s.shared.warden.heap a))
  | shorten {id : GoString} : s.loop = .polled todo id (.ok info) →
      s.shared.warden.addr? id = some a → (s.shared.warden.heap a).state = .opened →
      info.revokedAt = none → s.clock.wall < info.expiresAt →
      info.expiresAt < (s.shared.warden.heap a).deadline →
      Moves s (.run r) a (setDeadline info.expiresAt s.clock.mono
        (timeLeft info.expiresAt s.clock.wall) (s.shared.warden.heap a))
  | close : (s.shared.warden.heap a).state = .opened →
      Moves s (.run r) a
        { s.shared.warden.heap a with state := .closing, reason, termSent := false }
  | attach : s.attaches i = .placed j → j.addr = a →
      (s.shared.warden.heap a).state = .opened →
      Moves s (.attach i r) a { s.shared.warden.heap a with
        sessions := (s.shared.warden.heap a).sessions.put (j.session cfg) }
  | prune : Moves s (.run r) a { s.shared.warden.heap a with
      sessions := (s.shared.warden.heap a).sessions.delete p }
  | term : Moves s (.run r) a { s.shared.warden.heap a with
      termSent := true, closingSince := now }
  | remaining : Moves s (.run r) a { s.shared.warden.heap a with remaining := pids }
  | closed : s.loop = .stopped todo a →
      Moves s (.run r) a { s.shared.warden.heap a with
        state := .closed, remaining := [], closingSince := now, sessions := .empty }

theorem closeLocked_moves (s : State) (reason : GoString) (a : Nat) :
    Moves cfg s (.run r) a (closeLocked reason (s.shared.warden.heap a)) := by
  unfold closeLocked
  split
  · rename_i h
    exact .close h
  · exact .same

theorem enforceDeadline_moves (s : State) (now : Int64) (mono : Int) (a : Nat) :
    Moves cfg s (.run r) a (enforceDeadline now mono (s.shared.warden.heap a)) := by
  unfold enforceDeadline
  split
  · exact closeLocked_moves cfg s _ a
  · exact .same

theorem pollGrant_moves {id : GoString} (hst : s.loop = .polled todo id answer)
    (ha : s.shared.warden.addr? id = some a) (h : (s.shared.warden.heap a).state = .opened) :
    Moves cfg s (.run r) a (pollGrant s.clock answer (s.shared.warden.heap a)) := by
  unfold pollGrant
  split
  · exact closeLocked_moves cfg s _ a
  · exact .same
  · split
    · exact closeLocked_moves cfg s _ a
    · rename_i hrev
      split
      · exact closeLocked_moves cfg s _ a
      · rename_i hexp
        split
        · rename_i hless
          exact .shorten hst ha h (by simpa using hrev) (Int64.not_le.mp hexp) hless
        · exact .same

theorem write_moves {s : State} (h : Moves cfg s act a g) (b : Nat) :
    Moves cfg s act b ((s.shared.warden.write a g).heap b) := by
  rw [heap_write]
  split
  · rename_i hb
    rw [hb]
    exact h
  · exact .same

theorem forEach_moves {s : State} {f : Grant → Grant}
    (h : ∀ a, Moves cfg s act a (f (s.shared.warden.heap a))) (a : Nat) :
    Moves cfg s act a ((s.shared.warden.forEach f).heap a) := by
  rw [heap_forEach]
  split
  · exact h a
  · exact .same

theorem Section.moves {s : State} (h : Section cfg s act w) (ha : a < s.shared.warden.next) :
    Moves cfg s act a (w.heap a) := by
  cases h with
  | none => exact .same
  | record hst hw =>
    obtain ⟨-, rfl⟩ := recordPending_eq_ok hw
    exact .same
  | take hst => exact .same
  | track hst hw =>
    obtain ⟨haddr, hopen, rfl⟩ | ⟨-, -, rfl⟩ := track_eq_ok hw
    · exact write_moves cfg (.retrack hst haddr hopen) a
    · simp only [Function.update_apply, Nat.ne_of_lt ha, if_false]
      exact .same
  | attach hst hw =>
    obtain ⟨hopen, rfl⟩ := attachSession_eq_ok hw
    exact write_moves cfg (.attach hst rfl hopen) a
  | enforce hst => exact forEach_moves cfg (enforceDeadline_moves cfg s _ _) a
  | poll hst =>
    unfold applyPoll
    split
    · exact .same
    · rename_i haddr
      split
      · rename_i hopen
        exact write_moves cfg (pollGrant_moves cfg hst haddr hopen) a
      · exact .same
  | expire hst => exact .same
  | prune hst => exact forEach_moves cfg (fun a => .prune) a
  | term hst hmem =>
    refine write_moves cfg ?_ a
    split
    · exact .same
    · exact .term
  | remaining hst => exact write_moves cfg .remaining a
  | close hst => exact write_moves cfg (.closed hst) a
  | forget hst => exact .same

inductive MapMoves (w w' : Warden) : Prop
  | same : w'.grants = w.grants → w'.next = w.next → MapMoves w w'
  | add {id : GoString} : w.addr? id = none → w'.grants = w.grants.put ⟨id, w.next⟩ →
      w'.next = w.next + 1 → w'.heap w.next = setDeadline expiresAt mono left (newGrant id) →
      MapMoves w w'
  | forget : w'.grants = w.grants.delete p → w'.next = w.next →
      (∀ e, p e = true → (w.heap e.addr).state = .closed) → MapMoves w w'

theorem Section.map {s : State} (h : Section cfg s act w) :
    MapMoves s.shared.warden w := by
  cases h with
  | none => exact .same rfl rfl
  | record hst hw =>
    obtain ⟨-, rfl⟩ := recordPending_eq_ok hw
    exact .same rfl rfl
  | take hst => exact .same rfl rfl
  | track hst hw =>
    obtain ⟨-, -, rfl⟩ | ⟨hnone, -, rfl⟩ := track_eq_ok hw
    · exact .same rfl rfl
    · exact .add hnone rfl rfl (Function.update_self ..)
  | attach hst hw =>
    obtain ⟨-, rfl⟩ := attachSession_eq_ok hw
    exact .same rfl rfl
  | enforce hst => exact .same rfl rfl
  | poll hst =>
    unfold applyPoll
    split
    · exact .same rfl rfl
    · split <;> exact .same rfl rfl
  | expire hst => exact .same rfl rfl
  | prune hst => exact .same rfl rfl
  | term hst hmem => exact .same rfl rfl
  | remaining hst => exact .same rfl rfl
  | close hst => exact .same rfl rfl
  | forget hst =>
    refine .forget rfl rfl fun e he => ?_
    simp only [decide_eq_true_eq] at he
    exact he.1

end Grantd.Warden
