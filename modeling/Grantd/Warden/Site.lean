import Grantd.Signer.Authorization
import Grantd.Signer.Lifetime
import Grantd.Warden.Admission

/-!
# The signer and the warden on one host

The warden's three users of the lifetime socket, `Admit`, `Attach` and the poll
of the run loop, ask the signer while it serves its other callers. A query is
four moments: it is sent, the handler reads the grant, it reads the serial, and
the reply is taken up; anything can happen in between. So an answer may be old
by the time it is acted upon, but it is the signer's, and the first read is no
older than the question.
-/

namespace Grantd.Warden

open Signer (LifetimeGrant)

-- ---------------------------------------------------------------------------
-- What a call has been told
-- ---------------------------------------------------------------------------

def AdmitState.told : AdmitState → Option (GoString × LifetimeGrant)
  | .answered _ grantID _ (.ok info) | .checked _ grantID _ info => some (grantID, info)
  | _ => none

def AttachState.told : AttachState → Option (GoString × LifetimeGrant)
  | .answered _ _ p _ (.ok info) => some (p.grantID, info)
  | .checked job | .timed job _ => some (job.p.grantID, job.info)
  | .tracked j | .sliceFailed j | .sliced j | .readBack j _ | .lost j | .placed j
  | .attached j _ => some (j.job.p.grantID, j.job.info)
  | _ => none

def LoopState.told : LoopState → Option (GoString × LifetimeGrant)
  | .polled _ id (.ok info) => some (id, info)
  | _ => none

variable {cfg : Config} {id : GoString}

theorem admitNext_told (h : admitNext n clock r m st = some (st', m', es))
    (ht : st'.told = some (id, info)) :
    st.told = some (id, info) ∨ ∃ c sshd, st = .allowed c id sshd ∧ r.answer = .ok info := by
  cases st with
  | idle | admitted | refused => cases h
  | called c grantID =>
    simp only [admitNext] at h
    split at h <;> cases h <;> cases ht
  | parent c grantID sshd =>
    simp only [admitNext] at h
    split at h <;> cases h <;> cases ht
  | allowed c grantID sshd =>
    cases h
    cases hanswer : r.answer with
    | error e =>
      rw [hanswer] at ht
      cases ht
    | ok info' =>
      rw [hanswer] at ht
      cases ht
      exact .inr ⟨c, sshd, rfl, rfl⟩
  | answered c grantID sshd answer =>
    simp only [admitNext] at h
    split at h
    · cases h
      cases ht
    · rename_i info' hcheck
      cases h
      cases ht
      rw [(checkGrant_eq_ok.mp hcheck).1]
      exact .inl rfl
  | checked c grantID sshd info' =>
    simp only [admitNext] at h
    split at h <;> cases h <;> cases ht

theorem attachNext_told (h : attachNext cfg i clock r m st = some (st', m', es))
    (ht : st'.told = some (id, info)) :
    st.told = some (id, info) ∨
      ∃ c sshd p takenAt, st = .valid c sshd p takenAt ∧ p.grantID = id ∧ r.answer = .ok info := by
  cases st with
  | idle | attached | refused => cases h
  | called c =>
    simp only [attachNext] at h
    split at h <;> cases h <;> cases ht
  | parent c sshd =>
    cases h
    cases ht
  | taken c sshd p =>
    simp only [attachNext] at h
    split at h <;> cases h <;> cases ht
  | valid c sshd p takenAt =>
    cases h
    cases hanswer : r.answer with
    | error e =>
      rw [hanswer] at ht
      cases ht
    | ok info' =>
      rw [hanswer] at ht
      cases ht
      exact .inr ⟨c, sshd, p, takenAt, rfl, rfl, rfl⟩
  | answered c sshd p takenAt answer =>
    simp only [attachNext] at h
    split at h
    · cases h
      cases ht
    · rename_i info' hcheck
      cases h
      cases ht
      rw [(checkGrant_eq_ok.mp hcheck).1]
      exact .inl rfl
  | checked job | timed job now =>
    simp only [attachNext] at h
    split at h <;> cases h <;> cases ht
    exact .inl rfl
  | tracked j | sliceFailed j | sliced j | placed j =>
    simp only [attachNext] at h
    split at h <;> cases h <;> cases ht <;> exact .inl rfl
  | readBack j tries =>
    simp only [attachNext] at h
    split at h
    · cases h
      exact .inl ht
    · split at h
      · cases h
        exact .inl ht
      · split at h <;> cases h <;> exact .inl ht
  | lost j =>
    cases h
    cases ht

theorem loopNext_told (h : loopNext cfg clock r m last st = some (st', last', m', k))
    (ht : st'.told = some (id, info)) :
    ∃ todo, st = .polling todo ∧ todo[r.pick]? = some id ∧ r.answer = .ok info := by
  cases st with
  | polling todo =>
    cases todo with
    | nil =>
      cases h
      cases ht
    | cons id' ids =>
      simp only [loopNext] at h
      split at h
      · cases h
      · rename_i hpick
        cases h
        cases hanswer : r.answer with
        | error e =>
          rw [hanswer] at ht
          cases ht
        | ok info' =>
          rw [hanswer] at ht
          cases ht
          exact ⟨_, rfl, hpick, rfl⟩
  | idle | enforcing | polled | expire | expiring | prune | collect | list | listed | finalize
  | stopped =>
    cases h
    cases ht
  | enforced | sent | signal =>
    simp only [loopNext] at h
    split at h <;> cases h <;> cases ht
  | signalled todo a =>
    simp only [loopNext] at h
    split at h
    · cases h
      cases ht
    · split at h <;> cases h <;> cases ht
  | closing todo =>
    cases todo with
    | nil =>
      cases h
      cases ht
    | cons a as =>
      simp only [loopNext] at h
      split at h <;> cases h
      cases ht

end Grantd.Warden

namespace Grantd.Warden.Lifetime

open Base
open Signer (LifetimeGrant Store FreshIDs Made Unforged grantInfo lifetimeGrant lifetimeView
  withSerial)

-- ---------------------------------------------------------------------------
-- Queries
-- ---------------------------------------------------------------------------

inductive Asker
  | admission (n : Nat)
  | attach (i : Nat)
  | poll
  deriving DecidableEq, Repr

inductive Query
  | none
  | asked (id : GoString)
  | viewed (id : GoString) (out : LifetimeGrant)
  | replied (id : GoString) (answer : Answer)

structure Site where
  signer : Signer.State
  warden : State
  query : Asker → Query

inductive Move
  | signer (a : Signer.Action)
  | warden (act : Action)
  | ask (who : Asker) (id : GoString)
  | view (who : Asker)
  | serial (who : Asker)
  | fail (who : Asker)

def Asker.wants (w : State) (id : GoString) : Asker → Bool
  | .admission n =>
    match w.admits n with
    | .allowed _ grantID _ => grantID == id
    | _ => false
  | .attach i =>
    match w.attaches i with
    | .valid _ _ p _ => p.grantID == id
    | _ => false
  | .poll =>
    match w.loop with
    | .polling todo => todo.contains id
    | _ => false

def takes (w : State) : Action → Option (Asker × GoString)
  | .admitStep n _ =>
    match w.admits n with
    | .allowed _ grantID _ => some (.admission n, grantID)
    | _ => none
  | .attach i _ =>
    match w.attaches i with
    | .valid _ _ p _ => some (.attach i, p.grantID)
    | _ => none
  | .run r =>
    match w.loop with
    | .polling todo => todo[r.pick]?.map fun id => (.poll, id)
    | _ => none
  | _ => none

def reply (answer : Answer) : Action → Action
  | .admitStep n r => .admitStep n { r with answer }
  | .attach i r => .attach i { r with answer }
  | .run r => .run { r with answer }
  | act => act

/-- The first read of the handler; without a row it replies at once. -/
def firstRead (store : Store) (id : GoString) : Query :=
  match lifetimeView store id with
  | .error e => .replied id (grantInfo id (.error e))
  | .ok out => .viewed id out

variable (cfg : Config) (S : Signer)

def step (s : Site) : Move → Option Site
  | .signer a => (Signer.step S s.signer a).map fun signer => { s with signer }
  | .warden act =>
    match takes s.warden act with
    | none => (Warden.step cfg s.warden act).map fun warden => { s with warden }
    | some (who, id) =>
      match s.query who with
      | .replied id' answer =>
        if id' = id then
          (Warden.step cfg s.warden (reply answer act)).map fun warden =>
            { s with warden, query := Function.update s.query who .none }
        else none
      | _ => none
  | .ask who id =>
    match s.query who with
    | .none =>
      if who.wants s.warden id then
        some { s with query := Function.update s.query who (.asked id) }
      else none
    | _ => none
  | .view who =>
    match s.query who with
    | .asked id => some { s with
        query := Function.update s.query who (firstRead s.signer.store id) }
    | _ => none
  | .serial who =>
    match s.query who with
    | .viewed id out =>
      let answer := grantInfo id (.ok (withSerial s.signer.store out))
      some { s with query := Function.update s.query who (.replied id answer) }
    | _ => none
  -- The signer is out of reach, too slow, or its database fails.
  | .fail who =>
    match s.query who with
    | .asked id | .viewed id _ => some { s with
        query := Function.update s.query who (.replied id (.error .other)) }
    | _ => none

/-- The warden starts on what `Reconcile` leaves behind, at any point of the
signer's life. -/
def site (ok : Signer.State → Signer.Action → Prop) : Machine Site Move where
  Init s := (Signer.machine S).Reachable ok s.signer ∧ Initial cfg s.warden ∧
    ∀ who, s.query who = .none
  step := step cfg S

inductive Happens (s : Site) : Move → Site → Prop
  | signer : Signer.step S s.signer a = some signer → Happens s (.signer a) { s with signer }
  | warden : takes s.warden act = none → Warden.step cfg s.warden act = some warden →
      Happens s (.warden act) { s with warden }
  | take {id : GoString} : takes s.warden act = some (who, id) → s.query who = .replied id answer →
      Warden.step cfg s.warden (reply answer act) = some warden →
      Happens s (.warden act) { s with warden, query := Function.update s.query who .none }
  | ask {id : GoString} : s.query who = .none → who.wants s.warden id = true →
      Happens s (.ask who id) { s with query := Function.update s.query who (.asked id) }
  | view {id : GoString} : s.query who = .asked id → Happens s (.view who)
      { s with query := Function.update s.query who (firstRead s.signer.store id) }
  | serial {id : GoString} : s.query who = .viewed id out → Happens s (.serial who)
      { s with query := Function.update s.query who
                (.replied id (grantInfo id (.ok (withSerial s.signer.store out)))) }
  | fail {id : GoString} : s.query who ≠ .none → Happens s (.fail who)
      { s with query := Function.update s.query who (.replied id (.error .other)) }

-- ---------------------------------------------------------------------------
-- Where answers come from
-- ---------------------------------------------------------------------------

variable {cfg S} {s t : Site} {id : GoString}

def Asker.holds (w : State) : Asker → Option (GoString × LifetimeGrant)
  | .admission n => (w.admits n).told
  | .attach i => (w.attaches i).told
  | .poll => w.loop.told

/-- The asker has been told this of the grant: in a reply that waits or in the
one it goes by. -/
def Site.Told (s : Site) (who : Asker) (id : GoString) (info : LifetimeGrant) : Prop :=
  s.query who = .replied id (.ok info) ∨ who.holds s.warden = some (id, info)

def answer? : Action → Option Answer
  | .admitStep _ r | .attach _ r | .run r => some r.answer
  | _ => none

theorem holds_step (h : Warden.step cfg w act = some w') (ht : who.holds w' = some (id, info)) :
    who.holds w = some (id, info) ∨
      takes w act = some (who, id) ∧ answer? act = some (.ok info) := by
  cases act with
  | tick c | exit unit pid =>
    cases h
    exact .inl ht
  | fork unit parent child | collect unit =>
    simp only [Warden.step] at h
    split at h <;> cases h
    exact .inl ht
  | admitStart n c =>
    simp only [Warden.step] at h
    split at h <;> cases h
    cases who with
    | attach | poll => exact .inl ht
    | admission k =>
      simp only [Asker.holds, Function.update_apply] at ht
      split at ht
      · unfold admitStart at ht
        repeat' split at ht
        all_goals cases ht
      · exact .inl ht
  | admitStep n r =>
    simp only [Warden.step] at h
    split at h
    · cases h
    · rename_i hnext
      cases h
      cases who with
      | attach | poll => exact .inl ht
      | admission k =>
        simp only [Asker.holds, Function.update_apply] at ht
        split at ht
        · rename_i hk
          subst hk
          rcases admitNext_told hnext ht with hold | ⟨c, sshd, hst, hanswer⟩
          · exact .inl hold
          · exact .inr ⟨by simp only [takes, hst], congrArg some hanswer⟩
        · exact .inl ht
  | attachStart i c =>
    simp only [Warden.step] at h
    split at h <;> cases h
    cases who with
    | admission | poll => exact .inl ht
    | attach k =>
      simp only [Asker.holds, Function.update_apply] at ht
      split at ht
      · unfold attachStart at ht
        repeat' split at ht
        all_goals cases ht
      · exact .inl ht
  | attach i r =>
    simp only [Warden.step] at h
    split at h
    · cases h
    · rename_i hnext
      cases h
      cases who with
      | admission | poll => exact .inl ht
      | attach k =>
        simp only [Asker.holds, Function.update_apply] at ht
        split at ht
        · rename_i hk
          subst hk
          rcases attachNext_told hnext ht with hold | ⟨c, sshd, p, takenAt, hst, hid, hanswer⟩
          · exact .inl hold
          · exact .inr ⟨by simp only [takes, hst, hid], congrArg some hanswer⟩
        · exact .inl ht
  | run r =>
    simp only [Warden.step] at h
    split at h
    · cases h
    · rename_i hnext
      cases h
      cases who with
      | admission | attach => exact .inl ht
      | poll =>
        obtain ⟨todo, hst, hpick, hanswer⟩ := loopNext_told hnext ht
        exact .inr ⟨by simp only [takes, hst, hpick, Option.map_some], congrArg some hanswer⟩

theorem takes_reply (w : State) (answer : Answer) (act : Action) :
    takes w (reply answer act) = takes w act := by
  cases act <;> rfl

theorem answer?_reply (h : answer? (reply answer act) = some x) : x = answer := by
  cases act <;> cases h <;> rfl

theorem wants_step (h : Warden.step cfg w act = some w') (hw : Asker.wants w id who = true) :
    Asker.wants w' id who = true ∨ ∃ id', takes w act = some (who, id') := by
  cases act with
  | tick c | exit unit pid =>
    cases h
    exact .inl hw
  | fork unit parent child | collect unit =>
    simp only [Warden.step] at h
    split at h <;> cases h
    exact .inl hw
  | admitStart n c =>
    simp only [Warden.step] at h
    split at h <;> cases h
    rename_i hidle
    cases who with
    | attach | poll => exact .inl hw
    | admission k =>
      by_cases hk : k = n
      · subst hk
        simp [Asker.wants, hidle] at hw
      · exact .inl (by simpa only [Asker.wants, Function.update_apply, hk, if_false] using hw)
  | admitStep n r =>
    simp only [Warden.step] at h
    split at h <;> cases h
    cases who with
    | attach | poll => exact .inl hw
    | admission k =>
      by_cases hk : k = n
      · subst hk
        simp only [Asker.wants] at hw
        split at hw
        · rename_i hst
          exact .inr ⟨_, by simp only [takes, hst]; rfl⟩
        · cases hw
      · exact .inl (by simpa only [Asker.wants, Function.update_apply, hk, if_false] using hw)
  | attachStart i c =>
    simp only [Warden.step] at h
    split at h <;> cases h
    rename_i hidle
    cases who with
    | admission | poll => exact .inl hw
    | attach k =>
      by_cases hk : k = i
      · subst hk
        simp [Asker.wants, hidle] at hw
      · exact .inl (by simpa only [Asker.wants, Function.update_apply, hk, if_false] using hw)
  | attach i r =>
    simp only [Warden.step] at h
    split at h <;> cases h
    cases who with
    | admission | poll => exact .inl hw
    | attach k =>
      by_cases hk : k = i
      · subst hk
        simp only [Asker.wants] at hw
        split at hw
        · rename_i hst
          exact .inr ⟨_, by simp only [takes, hst]; rfl⟩
        · cases hw
      · exact .inl (by simpa only [Asker.wants, Function.update_apply, hk, if_false] using hw)
  | run r =>
    cases who with
    | admission | attach =>
      simp only [Warden.step] at h
      split at h <;> cases h
      exact .inl hw
    | poll =>
      simp only [Asker.wants] at hw
      split at hw
      · rename_i todo hst
        cases todo with
        | nil => cases hw
        | cons id' ids =>
          simp only [Warden.step, hst, loopNext] at h
          cases hpick : (id' :: ids)[r.pick]? with
          | none => simp [hpick] at h
          | some picked => exact .inr ⟨picked, by simp only [takes, hst, hpick, Option.map_some]⟩
      · cases hw

theorem happens (h : step cfg S s m = some t) : Happens cfg S s m t := by
  cases m with
  | signer a =>
    obtain ⟨signer, hsigner, rfl⟩ := Option.map_eq_some_iff.mp h
    exact .signer hsigner
  | warden act =>
    simp only [step] at h
    split at h
    · rename_i htakes
      obtain ⟨warden, hwarden, rfl⟩ := Option.map_eq_some_iff.mp h
      exact .warden htakes hwarden
    · rename_i who id htakes
      split at h
      · rename_i id' answer hquery
        split at h
        · rename_i hid
          subst hid
          obtain ⟨warden, hwarden, rfl⟩ := Option.map_eq_some_iff.mp h
          exact .take htakes hquery hwarden
        · cases h
      · cases h
  | ask who id =>
    simp only [step] at h
    split at h
    · rename_i hquery
      split at h <;> cases h
      rename_i hwants
      exact .ask hquery hwants
    · cases h
  | view who =>
    simp only [step] at h
    split at h <;> cases h
    rename_i hquery
    exact .view hquery
  | serial who =>
    simp only [step] at h
    split at h <;> cases h
    rename_i hquery
    exact .serial hquery
  | fail who =>
    simp only [step] at h
    split at h <;> cases h <;> rename_i hquery <;> exact .fail (by simp [hquery])

theorem grantInfo_ok (h : grantInfo id (.ok g) = .ok info) : g = info := by
  unfold grantInfo at h
  split at h
  · cases h
  · cases h
  · rename_i heq
    split at h <;> cases h
    cases heq
    rfl

theorem firstRead_viewed {store : Store} (h : firstRead store id' = .viewed id out) :
    lifetimeView store id = .ok out := by
  unfold firstRead at h
  split at h
  · cases h
  · rename_i hview
    cases h
    exact hview

theorem firstRead_replied {store : Store} (h : firstRead store id' = .replied id answer) :
    ∃ e, answer = .error e := by
  unfold firstRead at h
  split at h
  · rename_i e hview
    cases h
    cases e <;> exact ⟨_, rfl⟩
  · cases h

theorem step_told (h : step cfg S s m = some t) (ht : t.Told who id info) :
    s.Told who id info ∨
      ∃ out, s.query who = .viewed id out ∧ info = withSerial s.signer.store out := by
  have unchanged {q : Query} {who' : Asker} (hq : q ≠ .replied id (.ok info))
      (h : Function.update s.query who' q who = .replied id (.ok info)) :
      s.query who = .replied id (.ok info) := by
    rw [Function.update_apply] at h
    split at h
    · exact absurd h hq
    · exact h
  cases happens h with
  | signer => exact .inl ht
  | warden htakes hstep =>
    rcases ht with hquery | hholds
    · exact .inl (.inl hquery)
    · rcases holds_step hstep hholds with hold | ⟨htook, -⟩
      · exact .inl (.inr hold)
      · rw [htakes] at htook
        cases htook
  | take htakes hquery hstep =>
    rcases ht with hreply | hholds
    · exact .inl (.inl (unchanged (by simp) hreply))
    · rcases holds_step hstep hholds with hold | ⟨htook, hanswer⟩
      · exact .inl (.inr hold)
      · rw [takes_reply, htakes] at htook
        cases htook
        cases answer?_reply hanswer
        exact .inl (.inl hquery)
  | ask => exact .inl (ht.imp_left (unchanged (by simp)))
  | fail => exact .inl (ht.imp_left (unchanged (by simp)))
  | view hquery =>
    refine .inl (ht.imp_left (unchanged fun hread => ?_))
    obtain ⟨e, he⟩ := firstRead_replied hread
    cases he
  | @serial who' out id' hquery =>
    rcases ht with hreply | hholds
    · by_cases hwho : who = who'
      · subst hwho
        simp only [Function.update_self, Query.replied.injEq] at hreply
        obtain ⟨rfl, hinfo⟩ := hreply
        exact .inr ⟨out, hquery, (grantInfo_ok hinfo).symm⟩
      · exact .inl (.inl (by simpa [Function.update_apply, hwho] using hreply))
    · exact .inl (.inr hholds)

theorem step_viewed (h : step cfg S s m = some t) (ht : t.query who = .viewed id out) :
    s.query who = .viewed id out ∨ lifetimeView s.signer.store id = .ok out := by
  have unchanged {q : Query} {who' : Asker} (hq : q ≠ .viewed id out)
      (h : Function.update s.query who' q who = .viewed id out) : s.query who = .viewed id out := by
    rw [Function.update_apply] at h
    split at h
    · exact absurd h hq
    · exact h
  cases happens h with
  | signer | warden => exact .inl ht
  | take | ask | serial | fail => exact .inl (unchanged (by simp) ht)
  | @view who' id' hquery =>
    by_cases hread : firstRead s.signer.store id' = .viewed id out
    · exact .inr (firstRead_viewed hread)
    · exact .inl (unchanged hread ht)

def Site.Waits (s : Site) : Prop :=
  ∀ who, s.query who ≠ .none → ∃ id, Asker.wants s.warden id who = true

theorem Site.Waits.step (hs : s.Waits) (h : step cfg S s m = some t) : t.Waits := by
  intro who hne
  have kept {q : Query} {who' : Asker} (hq : s.query who' ≠ .none)
      (h : Function.update s.query who' q who ≠ .none) : s.query who ≠ .none := by
    by_cases hwho : who = who'
    · rw [hwho]
      exact hq
    · simpa [Function.update_apply, hwho] using h
  cases happens h with
  | signer => exact hs who hne
  | warden htakes hstep =>
    obtain ⟨id, hid⟩ := hs who hne
    rcases wants_step hstep hid with hwants | ⟨id', htook⟩
    · exact ⟨id, hwants⟩
    · rw [htakes] at htook
      cases htook
  | @take act who' _ _ _ htakes hquery hstep =>
    have hwho : who ≠ who' := by
      rintro rfl
      simp at hne
    obtain ⟨id, hid⟩ := hs who (by simpa [Function.update_apply, hwho] using hne)
    rcases wants_step hstep hid with hwants | ⟨id', htook⟩
    · exact ⟨id, hwants⟩
    · rw [takes_reply, htakes] at htook
      cases htook
      exact absurd rfl hwho
  | @ask who' id hnone hwants =>
    by_cases hwho : who = who'
    · subst hwho
      exact ⟨id, hwants⟩
    · exact hs who (by simpa [Function.update_apply, hwho] using hne)
  | view hquery | serial hquery => exact hs who (kept (by simp [hquery]) hne)
  | fail hquery => exact hs who (kept hquery hne)

-- ---------------------------------------------------------------------------
-- Runs
-- ---------------------------------------------------------------------------

/-- The signer's own steps meet `ok`. -/
def Serves (ok : Signer.State → Signer.Action → Prop) (s : Site) : Move → Prop
  | .signer a => ok s.signer a
  | _ => True

instance (ok : Signer.State → Signer.Action → Prop) [∀ s a, Decidable (ok s a)] (s : Site)
    (m : Move) : Decidable (Serves ok s m) :=
  match m with
  | .signer a => inferInstanceAs (Decidable (ok s.signer a))
  | .warden _ | .ask .. | .view _ | .serial _ | .fail _ => inferInstanceAs (Decidable True)

variable {ok : Signer.State → Signer.Action → Prop}

theorem signer_step (h : step cfg S s m = some t) (hok : Serves ok s m) :
    (Signer.machine S).Run ok s.signer t.signer := by
  cases happens h with
  | signer hstep => exact .of_step hok hstep
  | warden | take | ask | view | serial | fail => exact .refl _

theorem warden_step (h : step cfg S s m = some t) :
    (machine cfg).Run (fun _ _ => True) s.warden t.warden := by
  cases happens h with
  | warden _ hstep | take _ _ hstep => exact .of_step trivial hstep
  | signer | ask | view | serial | fail => exact .refl _

variable (cfg S ok) in
/-- What was read is what the signer had: the grant in `u` and the serial in
`v`, before now. -/
structure Sourced (s : Site) : Prop where
  signer : (Signer.machine S).Reachable ok s.signer
  warden : (machine cfg).Reachable (fun _ _ => True) s.warden
  waits : s.Waits
  viewed : ∀ who id out, s.query who = .viewed id out →
    ∃ u, (Signer.machine S).Reachable ok u ∧ (Signer.machine S).Run ok u s.signer ∧
      lifetimeView u.store id = .ok out
  told : ∀ who id info, s.Told who id info →
    ∃ u v, (Signer.machine S).Reachable ok u ∧ (Signer.machine S).Run ok u v ∧
      (Signer.machine S).Run ok v s.signer ∧
      grantInfo id (lifetimeGrant u.store v.store id) = .ok info

theorem Sourced.step (hs : Sourced cfg S ok s) (hok : Serves ok s m)
    (h : step cfg S s m = some t) : Sourced cfg S ok t := by
  have hrun := signer_step h hok
  refine ⟨hs.signer.run hrun, hs.warden.run (warden_step h), hs.waits.step h,
    fun who id out hviewed => ?_, fun who id info htold => ?_⟩
  · rcases step_viewed h hviewed with hold | hread
    · obtain ⟨u, hu, hrun', hview⟩ := hs.viewed who id out hold
      exact ⟨u, hu, hrun'.trans hrun, hview⟩
    · exact ⟨s.signer, hs.signer, hrun, hread⟩
  · rcases step_told h htold with hold | ⟨out, hquery, rfl⟩
    · obtain ⟨u, v, hu, huv, hv, hanswer⟩ := hs.told who id info hold
      exact ⟨u, v, hu, huv, hv.trans hrun, hanswer⟩
    · obtain ⟨u, hu, hrun', hview⟩ := hs.viewed who id out hquery
      obtain ⟨hvalid, row, hrow, rfl⟩ := Signer.lifetimeView_eq_ok.mp hview
      exact ⟨u, s.signer, hu, hrun', hrun,
        Signer.grantInfo_eq_ok.mpr ⟨hvalid, row, hrow, rfl⟩⟩

theorem Sourced.initial (h : (site cfg S ok).Init s) : Sourced cfg S ok s := by
  obtain ⟨hsigner, hwarden, hquery⟩ := h
  refine ⟨hsigner, .of_init hwarden, fun who hne => absurd (hquery who) hne,
    fun who id out hviewed => ?_, fun who id info htold => ?_⟩
  · rw [hquery] at hviewed
    cases hviewed
  · rcases htold with hreply | hholds
    · rw [hquery] at hreply
      cases hreply
    · cases who <;> simp [Asker.holds, hwarden.admits, hwarden.attaches, hwarden.loop,
        AdmitState.told, AttachState.told, LoopState.told] at hholds

theorem Sourced.reachable {allowed : Site → Move → Prop}
    (hall : ∀ s m, allowed s m → Serves ok s m) (hs : (site cfg S ok).Reachable allowed s) :
    Sourced cfg S ok s :=
  hs.invariant (fun _ h => .initial h) fun _ _ _ hI hok hstep => hI.step (hall _ _ hok) hstep

-- ---------------------------------------------------------------------------
-- One visitor
-- ---------------------------------------------------------------------------

namespace Sample

open Signer.Sample (grantID)

def start : Site := ⟨Signer.Sample.initial, Warden.Sample.initial, fun _ => .none⟩

theorem start_reachable {S : Signer} {allowed : Site → Move → Prop} :
    (site Warden.Sample.config S ok).Reachable allowed start := by
  refine .of_init ⟨Signer.Sample.initial_reachable,
    ⟨rfl, nofun, nofun, ?_, rfl, fun _ => rfl, fun _ => rfl, rfl, rfl⟩, fun _ => rfl⟩
  exact fun _ h => absurd rfl h

def query (who : Asker) : List Move := [.ask who grantID, .view who, .serial who]

def reading : Reading := Warden.Sample.reading 4242

def admitCall : AdmitCall :=
  { Warden.Sample.admitCall 4242 with serial := Signer.formatUint Signer.Sample.draw.serial }

def login : List Move :=
  (Signer.Sample.setUp ++ Signer.Sample.redemption).map .signer ++
  [.warden (.tick ⟨1700000010, 0⟩), .warden (.admitStart 0 admitCall)] ++
  List.replicate 2 (.warden (.admitStep 0 reading)) ++ query (.admission 0) ++
  List.replicate 3 (.warden (.admitStep 0 reading)) ++
  .warden (.attachStart 0 (Warden.Sample.attachCall 4242)) ::
  List.replicate 3 (.warden (.attach 0 reading)) ++ query (.attach 0) ++
  List.replicate 8 (.warden (.attach 0 reading))

end Sample

end Grantd.Warden.Lifetime
