import Grantd.Warden.Closing

/-!
# Every session has its own admission

What the calls have established where they stand, and what the log of
admissions and takes says about the pending map: an admission is recorded once,
sits in the map until it is taken or dropped, and is taken at most once.
-/

namespace Grantd.Warden

open Base
open Signer (LifetimeGrant)

section
variable (cfg : Config)

structure AdmitCall.Entered (c : AdmitCall) (grantID : GoString) : Prop where
  user : c.user = cfg.sshUser
  keyID : ∃ agentID, parseKeyID c.keyID = some (grantID, agentID)
  serial : c.serial ≠ []

structure Admission.Ok (adm : Admission) : Prop where
  entered : adm.call.Entered cfg adm.grantID
  parent : adm.sshd.pid = adm.call.caller.ppid
  serial : adm.info.certificateSerial = adm.call.serial

def AdmitState.Ok : AdmitState → Prop
  | .called c grantID => c.Entered cfg grantID
  | .parent c grantID sshd | .allowed c grantID sshd | .answered c grantID sshd _ =>
    c.Entered cfg grantID ∧ sshd.pid = c.caller.ppid
  | .checked c grantID sshd info => ∀ created, Admission.Ok cfg ⟨c, grantID, sshd, info, created⟩
  | .idle | .admitted _ | .refused _ => True

structure Pending.Fits (p : Pending) (c : AttachCall) (sshd : Proc) (takenAt : Int) : Prop where
  pid : p.sshd.pid = sshd.pid
  startTime : p.sshd.startTime = sshd.startTime
  user : p.user = c.user
  age : takenAt - p.created ≤ cfg.pendingTTL

structure Attaching.Ok (job : Attaching) : Prop where
  fits : job.p.Fits cfg job.call job.sshd job.takenAt
  user : job.info.sshUser = job.call.user
  unrevoked : job.info.revokedAt = none
  unexpired : job.checkedAt < job.info.expiresAt
  redeemed : job.info.redeemedAt.isSome = true

def AttachState.Ok (log : List Event) (i : Nat) : AttachState → Prop
  | .taken _ _ p => ∀ q ∈ p, .took i q ∈ log
  | .valid c sshd p takenAt | .answered c sshd p takenAt _ =>
    .took i p ∈ log ∧ p.Fits cfg c sshd takenAt
  | .checked job | .timed job _ => .took i job.p ∈ log ∧ job.Ok cfg
  | .tracked j | .sliceFailed j | .sliced j | .readBack j _ | .lost j | .placed j =>
    .took i j.job.p ∈ log ∧ j.job.Ok cfg
  | .attached j sess => .took i j.job.p ∈ log ∧ j.job.Ok cfg ∧ sess = j.session cfg
  | .idle | .called _ | .parent .. | .refused _ => True

end

def Admission.pending (adm : Admission) (n : Nat) : Pending :=
  ⟨adm.sshd, adm.grantID, adm.call.user, adm.info.expiresAt, adm.created, n⟩

/-- The log of newest events first, and the map and the calls it speaks of. -/
structure Journal (cfg : Config) (s : State) : Prop where
  admits : ∀ n, (s.admits n).Ok cfg
  admitted : ∀ n adm, .admitted n adm ∈ s.log →
    adm.Ok cfg ∧ ∃ user, s.admits n = .admitted user
  unique : ∀ n adm adm', .admitted n adm ∈ s.log → .admitted n adm' ∈ s.log → adm = adm'
  pending : ∀ p ∈ s.shared.warden.pending.rows,
    (∃ adm, .admitted p.call adm ∈ s.log ∧ p = adm.pending p.call) ∧
      ∀ i p', .took i p' ∈ s.log → p'.call ≠ p.call
  took : ∀ i p, .took i p ∈ s.log → ∃ adm, p = adm.pending p.call ∧
    [.took i p, .admitted p.call adm].Sublist s.log
  once : ∀ i i' p p', .took i p ∈ s.log → .took i' p' ∈ s.log → p.call = p'.call → i = i'
  attaches : ∀ i, (s.attaches i).Ok cfg s.log i

-- ---------------------------------------------------------------------------
-- Where the calls stand
-- ---------------------------------------------------------------------------

section
variable {cfg : Config} {s t : State}

theorem admitStart_ok (w : Warden) (c : AdmitCall) : (admitStart cfg w c).Ok cfg := by
  unfold admitStart
  split
  · trivial
  split
  · trivial
  split
  · trivial
  rename_i huser
  split
  · trivial
  rename_i grantID agentID hkey
  split
  · trivial
  rename_i hserial
  exact ⟨by simpa using huser, ⟨agentID, hkey⟩, by simpa using hserial⟩

theorem admitNext_ok (h : admitNext n clock r m st = some (st', m', es)) (hst : st.Ok cfg) :
    st'.Ok cfg := by
  cases st with
  | idle | admitted | refused => simp [admitNext] at h
  | called c grantID =>
    simp only [admitNext] at h
    split at h
    · cases h
      trivial
    · rename_i hsshd
      cases h
      exact ⟨hst, sshdOf_eq_ok hsshd⟩
  | parent c grantID sshd =>
    simp only [admitNext] at h
    split at h <;> cases h
    · trivial
    · exact hst
  | allowed c grantID sshd =>
    simp only [admitNext] at h
    cases h
    exact hst
  | answered c grantID sshd answer =>
    simp only [admitNext] at h
    split at h
    · cases h
      trivial
    · rename_i hcheck
      cases h
      obtain ⟨-, -, -, -, -, hserial⟩ := checkGrant_eq_ok.mp hcheck
      obtain ⟨hentered, hparent⟩ := hst
      exact fun _ => ⟨hentered, hparent, hserial.resolve_left hentered.serial⟩
  | checked c grantID sshd info =>
    simp only [admitNext] at h
    split at h <;> cases h <;> trivial

theorem AttachState.Ok.mono (h : AttachState.Ok cfg log i st) (hsub : log ⊆ log') :
    AttachState.Ok cfg log' i st := by
  cases st with
  | taken c sshd p => exact fun q hq => hsub (h q hq)
  | valid | answered | checked | timed | tracked | sliceFailed | sliced | readBack | lost | placed
  | attached => exact ⟨hsub h.1, h.2⟩
  | idle | called | parent | refused => trivial

theorem checkPending_eq_ok (h : checkPending cfg now c sshd p? = .ok p) :
    p? = some p ∧ p.Fits cfg c sshd now := by
  unfold checkPending at h
  split at h
  · cases h
  · simp only [bind_eq_ok, ensure_eq_ok, pure_eq_ok] at h
    obtain ⟨-, hsame, -, huser, -, hage, rfl⟩ := h
    simp only [Proc.sameProcess, Bool.and_eq_true, beq_iff_eq] at hsame
    exact ⟨rfl, hsame.1, hsame.2, by simpa using huser, by simpa using hage⟩

theorem attachNext_ok (h : attachNext cfg i clock r m st = some (st', m', es))
    (hst : st.Ok cfg log i) : st'.Ok cfg (es ++ log) i := by
  cases st with
  | idle | attached | refused => simp [attachNext] at h
  | called c =>
    simp only [attachNext] at h
    split at h <;> cases h <;> trivial
  | parent c sshd =>
    simp only [attachNext] at h
    cases h
    intro q hq
    exact List.mem_append_left _ (by simp_all)
  | taken c sshd p =>
    simp only [attachNext] at h
    split at h
    · cases h
      trivial
    · rename_i hcheck
      cases h
      obtain ⟨hp, hfits⟩ := checkPending_eq_ok hcheck
      exact ⟨hst _ hp, hfits⟩
  | valid c sshd p takenAt =>
    simp only [attachNext] at h
    cases h
    exact hst
  | answered c sshd p takenAt answer =>
    simp only [attachNext] at h
    split at h
    · cases h
      trivial
    · rename_i hcheck
      cases h
      obtain ⟨-, huser, hrev, hexp, hred, -⟩ := checkGrant_eq_ok.mp hcheck
      exact ⟨hst.1, hst.2, huser, hrev, hexp, hred⟩
  | checked job =>
    simp only [attachNext] at h
    split at h <;> cases h
    · trivial
    · exact hst
  | timed job now =>
    simp only [attachNext] at h
    split at h <;> cases h
    · trivial
    · exact hst
  | tracked j =>
    simp only [attachNext] at h
    split at h <;> cases h <;> exact hst
  | sliceFailed j =>
    simp only [attachNext] at h
    split at h <;> cases h
    · exact hst
    · trivial
  | sliced j =>
    simp only [attachNext] at h
    split at h <;> cases h
    · exact hst
    · trivial
  | readBack j tries =>
    simp only [attachNext] at h
    split at h
    · cases h
      exact hst
    · split at h
      · cases h
        exact hst
      · split at h <;> cases h <;> exact hst
  | lost j =>
    simp only [attachNext] at h
    cases h
    trivial
  | placed j =>
    simp only [attachNext] at h
    split at h <;> cases h
    · trivial
    · exact ⟨hst.1, hst.2, rfl⟩

-- ---------------------------------------------------------------------------
-- What a step writes down
-- ---------------------------------------------------------------------------

theorem step_admits (h : step cfg s act = some t) (n : Nat) :
    t.admits n = s.admits n ∨
    (∃ c, s.admits n = .idle ∧ t.admits n = admitStart cfg s.shared.warden c) ∨
    ∃ r m es, admitNext n s.clock r s.shared (s.admits n) = some (t.admits n, m, es) := by
  cases act with
  | tick c | exit unit pid =>
    cases h
    exact .inl rfl
  | run r | fork unit parent child | collect unit | attachStart i c | attach i r =>
    simp only [step] at h
    split at h <;> cases h
    exact .inl rfl
  | admitStart k c =>
    simp only [step] at h
    split at h <;> cases h
    rename_i hidle
    by_cases hk : n = k
    · subst hk
      exact .inr (.inl ⟨c, hidle, by simp⟩)
    · exact .inl (by simp [hk])
  | admitStep k r =>
    simp only [step] at h
    split at h
    · cases h
    · rename_i hnext
      cases h
      by_cases hk : n = k
      · subst hk
        exact .inr (.inr ⟨r, _, _, by simpa using hnext⟩)
      · exact .inl (by simp [hk])

theorem step_attaches_ok (h : step cfg s act = some t) (hs : ∀ i, (s.attaches i).Ok cfg s.log i)
    (i : Nat) : (t.attaches i).Ok cfg t.log i := by
  cases act with
  | tick c | exit unit pid =>
    cases h
    exact hs i
  | run r | fork unit parent child | collect unit | admitStart n c =>
    simp only [step] at h
    split at h <;> cases h
    exact hs i
  | admitStep n r =>
    simp only [step] at h
    split at h <;> cases h
    exact (hs i).mono (List.subset_append_right _ _)
  | attachStart k c =>
    simp only [step] at h
    split at h <;> cases h
    simp only [Function.update_apply]
    split
    · unfold attachStart
      repeat' split
      all_goals trivial
    · exact hs i
  | attach k r =>
    simp only [step] at h
    split at h
    · cases h
    · rename_i hnext
      cases h
      simp only [Function.update_apply]
      split
      · rename_i hi
        subst hi
        exact attachNext_ok hnext (hs i)
      · exact (hs i).mono (List.subset_append_right _ _)

inductive Writes (s t : State) : Prop
  | quiet : t.log = s.log →
      (∀ p ∈ t.shared.warden.pending.rows, p ∈ s.shared.warden.pending.rows) → Writes s t
  | record (n : Nat) (adm : Admission) :
      s.admits n = .checked adm.call adm.grantID adm.sshd adm.info →
      t.admits n = .admitted adm.call.user → t.log = .admitted n adm :: s.log →
      t.shared.warden.pending = s.shared.warden.pending.put (adm.pending n) → Writes s t
  | take (i : Nat) (p : Pending) : p ∈ s.shared.warden.pending.rows →
      t.log = .took i p :: s.log →
      t.shared.warden.pending = s.shared.warden.pending.delete (·.pid = p.pid) → Writes s t

theorem Section.pending_run (h : Section cfg s (.run r) w) :
    ∀ p ∈ w.pending.rows, p ∈ s.shared.warden.pending.rows := by
  intro p hp
  cases h with
  | expire hst => exact (List.mem_filter.mp hp).1
  | poll hst =>
    unfold applyPoll at hp
    split at hp
    · exact hp
    · split at hp <;> exact hp
  | none | enforce | prune | term | remaining | close | forget => exact hp

theorem admitNext_writes (h : admitNext n clock r m st = some (st', m', es)) :
    es = [] ∧ m'.warden.pending = m.warden.pending ∨
    ∃ adm : Admission, st = .checked adm.call adm.grantID adm.sshd adm.info ∧
      st' = .admitted adm.call.user ∧ es = [.admitted n adm] ∧
      m'.warden.pending = m.warden.pending.put (adm.pending n) := by
  cases st with
  | idle | admitted | refused => simp [admitNext] at h
  | allowed =>
    simp only [admitNext] at h
    cases h
    exact .inl ⟨rfl, rfl⟩
  | called | parent | answered =>
    simp only [admitNext] at h
    split at h <;> cases h <;> exact .inl ⟨rfl, rfl⟩
  | checked c grantID sshd info =>
    simp only [admitNext] at h
    split at h
    · cases h
      exact .inl ⟨rfl, rfl⟩
    · rename_i hrecord
      cases h
      obtain ⟨-, rfl⟩ := recordPending_eq_ok hrecord
      exact .inr ⟨⟨c, grantID, sshd, info, clock.mono⟩, rfl, rfl, rfl, rfl⟩

theorem attachNext_writes (h : attachNext cfg i clock r m st = some (st', m', es)) :
    es = [] ∧ (∀ p ∈ m'.warden.pending.rows, p ∈ m.warden.pending.rows) ∨
    ∃ p ∈ m.warden.pending.rows, es = [.took i p] ∧
      m'.warden.pending = m.warden.pending.delete (·.pid = p.pid) := by
  cases st with
  | idle | attached | refused => simp [attachNext] at h
  | parent c sshd =>
    simp only [attachNext, takePending] at h
    cases hget : m.warden.pending.get? sshd.pid with
    | none =>
      rw [hget] at h
      cases h
      exact .inl ⟨rfl, fun p hp => (List.mem_filter.mp hp).1⟩
    | some p =>
      rw [hget] at h
      cases h
      obtain ⟨hmem, hpid⟩ := Table.get?_eq_some.mp hget
      exact .inr ⟨p, hmem, rfl, by rw [hpid]⟩
  | valid | lost =>
    simp only [attachNext] at h
    cases h
    exact .inl ⟨rfl, fun _ hp => hp⟩
  | called | taken | answered | checked | tracked | sliceFailed | sliced =>
    simp only [attachNext] at h
    split at h <;> cases h <;> exact .inl ⟨rfl, fun _ hp => hp⟩
  | timed job now =>
    simp only [attachNext] at h
    split at h
    · cases h
      exact .inl ⟨rfl, fun _ hp => hp⟩
    · rename_i htrack
      cases h
      obtain ⟨-, -, rfl⟩ | ⟨-, -, rfl⟩ := track_eq_ok htrack <;> exact .inl ⟨rfl, fun _ hp => hp⟩
  | readBack j tries =>
    simp only [attachNext] at h
    split at h
    · cases h
      exact .inl ⟨rfl, fun _ hp => hp⟩
    · split at h
      · cases h
        exact .inl ⟨rfl, fun _ hp => hp⟩
      · split at h <;> cases h <;> exact .inl ⟨rfl, fun _ hp => hp⟩
  | placed j =>
    simp only [attachNext] at h
    split at h
    · cases h
      exact .inl ⟨rfl, fun _ hp => hp⟩
    · rename_i hattach
      cases h
      obtain ⟨-, rfl⟩ := attachSession_eq_ok hattach
      exact .inl ⟨rfl, fun _ hp => hp⟩

theorem step_writes (h : step cfg s act = some t) : Writes s t := by
  cases act with
  | tick c | exit unit pid =>
    cases h
    exact .quiet rfl fun _ hp => hp
  | fork unit parent child | collect unit | admitStart n c | attachStart i c =>
    simp only [step] at h
    split at h <;> cases h
    exact .quiet rfl fun _ hp => hp
  | run r =>
    simp only [step] at h
    split at h
    · cases h
    · rename_i hnext
      cases h
      refine .quiet rfl ?_
      simp only [Shared.kill_warden]
      exact (loopNext_section cfg hnext).pending_run
  | admitStep n r =>
    simp only [step] at h
    split at h
    · cases h
    · rename_i hnext
      cases h
      rcases admitNext_writes hnext with ⟨rfl, hp⟩ | ⟨adm, hst, rfl, rfl, hp⟩
      · exact .quiet rfl fun _ hmem => hp ▸ hmem
      · exact .record n adm hst (by simp) rfl hp
  | attach i r =>
    simp only [step] at h
    split at h
    · cases h
    · rename_i hnext
      cases h
      rcases attachNext_writes hnext with ⟨rfl, hp⟩ | ⟨p, hmem, rfl, hp⟩
      · exact .quiet rfl hp
      · exact .take i p hmem rfl hp

-- ---------------------------------------------------------------------------
-- The journal
-- ---------------------------------------------------------------------------

theorem Journal.admits_step (hs : Journal cfg s) (h : step cfg s act = some t) (n : Nat) :
    (t.admits n).Ok cfg := by
  rcases step_admits h n with heq | ⟨c, -, heq⟩ | ⟨r, m, es, hnext⟩
  · rw [heq]
    exact hs.admits n
  · rw [heq]
    exact admitStart_ok _ c
  · exact admitNext_ok hnext (hs.admits n)

theorem admitted_stays (h : step cfg s act = some t) (hn : s.admits n = .admitted user) :
    t.admits n = .admitted user := by
  rcases step_admits h n with heq | ⟨c, hidle, -⟩ | ⟨r, m, es, hnext⟩
  · rw [heq, hn]
  · cases hn.symm.trans hidle
  · simp [hn, admitNext] at hnext

theorem Journal.step (hs : Journal cfg s) (h : step cfg s act = some t) : Journal cfg t := by
  have hstays {n : Nat} {adm : Admission} (hmem : .admitted n adm ∈ s.log) :
      adm.Ok cfg ∧ ∃ user, t.admits n = .admitted user := by
    obtain ⟨hok, user, huser⟩ := hs.admitted n adm hmem
    exact ⟨hok, user, admitted_stays h huser⟩
  have hadmits := hs.admits_step h
  have hattaches := step_attaches_ok h hs.attaches
  cases step_writes h with
  | quiet hlog hpending =>
    refine ⟨hadmits, ?_, ?_, ?_, ?_, ?_, hattaches⟩
    · exact fun n adm hmem => hstays (hlog ▸ hmem)
    · exact hlog ▸ hs.unique
    · exact fun p hp => hlog ▸ hs.pending p (hpending p hp)
    · exact hlog ▸ hs.took
    · exact hlog ▸ hs.once
  | record n adm hchecked hdone hlog hpending =>
    -- The call had not been admitted before, so nothing speaks of its number yet.
    have hfresh (adm' : Admission) : .admitted n adm' ∉ s.log := fun hmem => by
      obtain ⟨-, user, huser⟩ := hs.admitted n adm' hmem
      cases huser.symm.trans hchecked
    have hok : adm.Ok cfg := by
      have := hs.admits n
      rw [hchecked] at this
      exact this adm.created
    have huntaken {i : Nat} {p : Pending} (hmem : .took i p ∈ s.log) : p.call ≠ n := by
      rintro rfl
      obtain ⟨adm', -, hsub⟩ := hs.took i p hmem
      exact hfresh adm' (hsub.subset (by simp))
    refine ⟨hadmits, ?_, ?_, ?_, ?_, ?_, hattaches⟩
    · intro k adm' hmem
      rw [hlog] at hmem
      rcases List.mem_cons.mp hmem with heq | hold
      · cases heq
        exact ⟨hok, _, hdone⟩
      · exact hstays hold
    · intro k adm₁ adm₂ h₁ h₂
      rw [hlog] at h₁ h₂
      rcases List.mem_cons.mp h₁ with heq₁ | hold₁ <;> rcases List.mem_cons.mp h₂ with heq₂ | hold₂
      · cases heq₁
        cases heq₂
        rfl
      · cases heq₁
        exact absurd hold₂ (hfresh _)
      · cases heq₂
        exact absurd hold₁ (hfresh _)
      · exact hs.unique k adm₁ adm₂ hold₁ hold₂
    · intro p hp
      rw [hpending] at hp
      rw [hlog]
      rcases List.mem_append.mp hp with hold | hnew
      · obtain ⟨⟨adm', hmem, heq⟩, hnot⟩ := hs.pending p (List.mem_filter.mp hold).1
        refine ⟨⟨adm', List.mem_cons_of_mem _ hmem, heq⟩, fun i p' hp' => ?_⟩
        exact hnot i p' (by simpa using hp')
      · cases List.mem_singleton.mp hnew
        refine ⟨⟨adm, List.mem_cons_self, rfl⟩, fun i p' hp' => ?_⟩
        exact huntaken (by simpa using hp')
    · intro i p hmem
      rw [hlog] at hmem ⊢
      obtain ⟨adm', heq, hsub⟩ := hs.took i p (by simpa using hmem)
      exact ⟨adm', heq, hsub.cons _⟩
    · intro i i' p p' hmem hmem'
      rw [hlog] at hmem hmem'
      exact hs.once i i' p p' (by simpa using hmem) (by simpa using hmem')
  | take i p hp hlog hpending =>
    obtain ⟨⟨adm, hadm, heq⟩, hnot⟩ := hs.pending p hp
    refine ⟨hadmits, ?_, ?_, ?_, ?_, ?_, hattaches⟩
    · intro n adm' hmem
      rw [hlog] at hmem
      exact hstays (by simpa using hmem)
    · intro n adm₁ adm₂ h₁ h₂
      rw [hlog] at h₁ h₂
      exact hs.unique n adm₁ adm₂ (by simpa using h₁) (by simpa using h₂)
    · intro q hq
      rw [hpending] at hq
      rw [hlog]
      obtain ⟨hmem, hpid⟩ := List.mem_filter.mp hq
      obtain ⟨⟨adm', hadm', heq'⟩, hnot'⟩ := hs.pending q hmem
      refine ⟨⟨adm', List.mem_cons_of_mem _ hadm', heq'⟩, fun k q' hq' => ?_⟩
      rcases List.mem_cons.mp hq' with hnew | hold
      · cases hnew
        -- One call records one admission, so another row is another call's.
        intro hcall
        rw [← hcall] at hadm' heq'
        cases hs.unique _ _ _ hadm hadm'
        have hsame : q = p := heq'.trans heq.symm
        simp [hsame] at hpid
      · exact hnot' k q' hold
    · intro k q hmem
      rw [hlog] at hmem ⊢
      rcases List.mem_cons.mp hmem with hnew | hold
      · cases hnew
        exact ⟨adm, heq, (List.singleton_sublist.mpr hadm).cons_cons _⟩
      · obtain ⟨adm', heq', hsub⟩ := hs.took k q hold
        exact ⟨adm', heq', hsub.cons _⟩
    · intro k k' q q' hmem hmem' hcall
      rw [hlog] at hmem hmem'
      rcases List.mem_cons.mp hmem with hnew | hold <;>
        rcases List.mem_cons.mp hmem' with hnew' | hold'
      · cases hnew
        cases hnew'
        rfl
      · cases hnew
        exact absurd hcall.symm (hnot k' q' hold')
      · cases hnew'
        exact absurd hcall (hnot k q hold)
      · exact hs.once k k' q q' hold hold' hcall

theorem Journal.initial (h : Initial cfg s) : Journal cfg s where
  admits n := by rw [h.admits n]; trivial
  admitted n adm hmem := by rw [h.log] at hmem; cases hmem
  unique n adm adm' hmem := by rw [h.log] at hmem; cases hmem
  pending p hp := by rw [h.pending] at hp; cases hp
  took i p hmem := by rw [h.log] at hmem; cases hmem
  once i i' p p' hmem := by rw [h.log] at hmem; cases hmem
  attaches i := by rw [h.attaches i]; trivial

theorem Journal.reachable (hs : (machine cfg).Reachable ok s) : Journal cfg s :=
  hs.invariant (fun _ h => .initial h) fun _ _ _ hJ _ hstep => hJ.step hstep

/-- When an `Attach` has returned and recorded a session, there was an `Admit`
before it of the same sshd process, of the enrolled user and of the session's
grant, on the serial the signer named. It was young enough when it was taken,
nobody else has taken it, and the answer `Attach` got itself shows the grant
live for that user. -/
theorem session_own_admission (hs : (machine cfg).Reachable (fun _ _ => True) s)
    (h : s.attaches i = .attached j sess) :
    (s.shared.warden.heap j.addr).id = j.job.p.grantID ∧
    ∃ adm : Admission,
      [.took i j.job.p, .admitted j.job.p.call adm].Sublist s.log ∧
      adm.sshd.pid = sess.pid ∧ adm.sshd.startTime = sess.startTime ∧
      adm.call.caller.ppid = sess.pid ∧
      adm.call.user = j.job.call.user ∧ adm.call.user = cfg.sshUser ∧
      (∃ agentID, parseKeyID adm.call.keyID = some (j.job.p.grantID, agentID)) ∧
      adm.call.serial ≠ [] ∧ adm.info.certificateSerial = adm.call.serial ∧
      j.job.takenAt - adm.created ≤ cfg.pendingTTL ∧
      (∀ i' p, .took i' p ∈ s.log → p.call = j.job.p.call → i' = i) ∧
      j.job.info.redeemedAt.isSome = true ∧ j.job.info.revokedAt = none ∧
      j.job.checkedAt < j.job.info.expiresAt ∧ j.job.info.sshUser = j.job.call.user := by
  have hJ := Journal.reachable hs
  have hcall := hJ.attaches i
  rw [h] at hcall
  obtain ⟨htook, hjob, rfl⟩ := hcall
  obtain ⟨adm, heq, hsub⟩ := hJ.took i _ htook
  obtain ⟨⟨huser, hkey, hserial⟩, hparent, hmatch⟩ :=
    (hJ.admitted j.job.p.call adm (hsub.subset (by simp))).1
  obtain ⟨hpid, hstart, hsame, hage⟩ := hjob.fits
  rw [heq] at hpid hstart hsame hage
  have hgrant : adm.grantID = j.job.p.grantID := (congrArg Pending.grantID heq).symm
  have hid := ((Inv.reachable hs).pointers i j (by rw [h]; rfl)).2
  refine ⟨hid, adm, hsub, hpid, hstart, hparent.symm.trans hpid, hsame, huser, hgrant ▸ hkey,
    hserial, hmatch, hage, ?_, hjob.redeemed, hjob.unrevoked, hjob.unexpired, hjob.user⟩
  exact fun i' p hp hcall => hJ.once i' i p _ hp htook hcall

end

/-- A first connection, from its certificate to its session. -/
theorem session_own_admission_first : ∃ s j sess,
    (machine Sample.config).Reachable (fun _ _ => True) s ∧ s.attaches 0 = .attached j sess ∧
    sess.pid = 4242 ∧ ∃ adm : Admission, .admitted j.job.p.call adm ∈ s.log ∧
      adm.sshd.pid = sess.pid ∧ adm.call.user = Sample.config.sshUser := by
  have hexec : ((machine Sample.config).exec (fun _ _ => True) Sample.initial
      (Sample.admission 0 4242 ++ Sample.tracking 0 4242 ++ Sample.placing 0 4242 ++
        [.attach 0 (Sample.reading 4242)])).any (fun s =>
          match s.attaches 0 with
          | .attached _ sess => sess.pid == 4242
          | _ => false) = true := by
    decide +kernel
  obtain ⟨s, hs, hprop⟩ := Option.any_eq_true .. |>.mp hexec
  have hreach : (machine Sample.config).Reachable (fun _ _ => True) s :=
    Sample.initial_reachable.run (.of_exec hs)
  split at hprop
  · rename_i j sess hst
    obtain ⟨-, adm, hsub, hpid, -, -, -, huser, -⟩ := session_own_admission hreach hst
    exact ⟨s, j, sess, hreach, hst, beq_iff_eq.mp hprop, adm, hsub.subset (by simp), hpid, huser⟩
  · cases hprop

end Grantd.Warden
