import Grantd.Warden.Site
import Grantd.Warden.Timing

/-!
# What a revocation reaches

From the moment `RevokeGrant` has written its row, nobody who asks the signer
is told any more that the grant is live. What remains are calls that had read
the grant before: they may still come to their end. The first poll that asks
afterwards and is answered closes the grant, and once the old calls are over no
object of the grant is ever Open again.
-/

namespace Grantd.Warden

open Base

variable {cfg : Config} {id : GoString}

theorem admitNext_unrevoked
    (h : admitNext n clock r m st = some (.checked c id sshd info, m', es)) :
    info.revokedAt = none := by
  cases st with
  | idle | admitted | refused | allowed => cases h
  | called | parent | checked =>
    simp only [admitNext] at h
    split at h <;> cases h
  | answered c' grantID sshd' answer =>
    simp only [admitNext] at h
    split at h
    · cases h
    · rename_i hcheck
      cases h
      exact (checkGrant_eq_ok.mp hcheck).2.2.1

theorem checked_unrevoked (hs : (machine cfg).Reachable ok s)
    (h : s.admits n = .checked c id sshd info) : info.revokedAt = none := by
  refine hs.invariant (I := fun s => ∀ n c id sshd info,
    s.admits n = .checked c id sshd info → info.revokedAt = none)
    (fun s hinit n c id sshd info h => ?_) (fun s act t hI _ hstep => ?_) n c id sshd info h
  · rw [hinit.admits] at h
    cases h
  · intro n c id sshd info h
    rcases step_admits hstep n with hsame | ⟨c', -, hstart⟩ | ⟨r, m, es, hnext⟩
    · exact hI n c id sshd info (hsame.symm.trans h)
    · rw [h] at hstart
      unfold admitStart at hstart
      repeat' split at hstart
      all_goals cases hstart
    · rw [h] at hnext
      exact admitNext_unrevoked hnext

theorem Section.addr? (h : Section cfg s act w) (ha : w.addr? id = some a) :
    s.shared.warden.addr? id = some a ∨
      ∃ i job now, s.attaches i = .timed job now ∧ job.p.grantID = id := by
  cases h with
  | none | take | enforce | expire | prune | term | remaining | close => exact .inl ha
  | record hst hw =>
    obtain ⟨-, rfl⟩ := recordPending_eq_ok hw
    exact .inl ha
  | attach hst hw =>
    obtain ⟨-, rfl⟩ := attachSession_eq_ok hw
    exact .inl ha
  | poll hst =>
    unfold applyPoll at ha
    split at ha
    · exact .inl ha
    · split at ha <;> exact .inl ha
  | track hst hw =>
    obtain ⟨-, -, rfl⟩ | ⟨-, -, rfl⟩ := track_eq_ok hw
    · exact .inl ha
    · simp only [Warden.addr?, Table.get?_put] at ha
      split at ha
      · rename_i hid
        exact .inr ⟨_, _, _, hst, hid⟩
      · exact .inl ha
  | forget hst =>
    refine .inl (addr?_eq_some.mpr ?_)
    exact (List.mem_filter.mp (addr?_eq_some.mp ha)).1

def Shut (w : Warden) (id : GoString) : Prop :=
  ∀ a, w.addr? id = some a → (w.heap a).state ≠ .opened

theorem Shut.step (hI : Inv s) (h : step cfg s act = some t)
    (hshut : s.shared.warden.Shut id) :
    t.shared.warden.Shut id ∨ ∃ i job now, s.attaches i = .timed job now ∧ job.p.grantID = id := by
  have hsec := step_section cfg h
  by_cases hnew : ∃ i job now, s.attaches i = .timed job now ∧ job.p.grantID = id
  · exact .inr hnew
  · refine .inl fun a ha hopen => ?_
    have hbefore := (hsec.addr? ha).resolve_right hnew
    have hlt := (hI.objects.entries _ (addr?_eq_some.mp hbefore)).1
    exact hshut a hbefore ((hsec.moves cfg hlt).opened hopen)

theorem applyPoll_shut {w : Warden} (hother : answer ≠ .error .other)
    (hinfo : ∀ info, answer = .ok info → info.revokedAt.isSome = true) :
    (w.applyPoll c id answer).Shut id := by
  have closes (reason : GoString) (g : Grant) : (closeLocked reason g).state ≠ .opened := by
    unfold closeLocked
    split
    · simp
    · assumption
  have hpoll (g : Grant) : (pollGrant c answer g).state ≠ .opened := by
    unfold pollGrant
    split
    · exact closes _ g
    · exact absurd rfl hother
    · rename_i info
      rw [if_pos (hinfo info rfl)]
      exact closes _ g
  intro a ha
  unfold applyPoll at ha ⊢
  cases haddr : w.addr? id with
  | none =>
    simp only [haddr] at ha
    cases ha
  | some b =>
    simp only [haddr] at ha ⊢
    split at ha
    · rename_i hopen
      have hab : b = a := Option.some.inj (haddr.symm.trans ha)
      subst hab
      rw [if_pos hopen, heap_write, if_pos rfl]
      exact hpoll _
    · rename_i hopen
      have hab : b = a := Option.some.inj (haddr.symm.trans ha)
      subst hab
      rw [if_neg hopen]
      exact hopen

end Grantd.Warden

namespace Grantd.Warden.Lifetime

open Base
open Signer (LifetimeGrant Store FreshIDs lifetimeView withSerial)

variable {cfg : Config} {S : Signer} {s t : Site} {id : GoString}

/-- Whatever the asker has read of the grant says that it is revoked. -/
structure Site.Current (s : Site) (id : GoString) (who : Asker) : Prop where
  viewed : ∀ out, s.query who = .viewed id out → out.revokedAt.isSome = true
  told : ∀ info, s.Told who id info → info.revokedAt.isSome = true

theorem view_revoked (hs : (Signer.machine S).Reachable FreshIDs u) (hrev : .revoked id ∈ u.log)
    (h : lifetimeView u.store id = .ok out) : out.revokedAt.isSome = true := by
  obtain ⟨-, row, hrow, rfl⟩ := Signer.lifetimeView_eq_ok.mp h
  exact Option.isSome_iff_ne_none.mpr ((Signer.Inv.reachable hs).revoked id row hrev hrow)

theorem withSerial_revokedAt (store : Store) (out : LifetimeGrant) :
    (withSerial store out).revokedAt = out.revokedAt := by
  unfold withSerial
  split <;> rfl

theorem Site.Current.step (hI : Sourced cfg S FreshIDs s) (hrev : .revoked id ∈ s.signer.log)
    (hc : s.Current id who) (h : step cfg S s m = some t) : t.Current id who := by
  refine ⟨fun out hviewed => ?_, fun info htold => ?_⟩
  · rcases step_viewed h hviewed with hold | hread
    · exact hc.viewed out hold
    · exact view_revoked hI.signer hrev hread
  · rcases step_told h htold with hold | ⟨out, hquery, rfl⟩
    · exact hc.told info hold
    · rw [withSerial_revokedAt]
      exact hc.viewed out hquery

theorem Site.Current.of_idle (hI : Sourced cfg S FreshIDs s)
    (hwants : ∀ id, Asker.wants s.warden id who = false) (hholds : who.holds s.warden = none) :
    s.Current id who := by
  have hquery : s.query who = .none := by
    by_contra hne
    obtain ⟨id', hid⟩ := hI.waits who hne
    rw [hwants] at hid
    cases hid
  refine ⟨fun out hviewed => ?_, fun info htold => ?_⟩
  · rw [hquery] at hviewed
    cases hviewed
  · rcases htold with hreply | hheld
    · rw [hquery] at hreply
      cases hreply
    · rw [hholds] at hheld
      cases hheld

theorem Site.Current.attach_live (hc : s.Current id (.attach i))
    (htold : (s.warden.attaches i).told = some (id, info)) : info.revokedAt ≠ none :=
  fun hnone => by
    have hsome := hc.told info (.inr htold)
    rw [hnone] at hsome
    cases hsome

theorem Shut.site_step (hI : Sourced cfg S FreshIDs s)
    (hc : ∀ i, s.Current id (.attach i)) (h : step cfg S s m = some t)
    (hshut : Shut s.warden.shared.warden id) : Shut t.warden.shared.warden id := by
  have moved {act w} (hstep : Warden.step cfg s.warden act = some w) : Shut w.shared.warden id := by
    rcases hshut.step (Inv.reachable hI.warden) hstep with hstill | ⟨i, job, now, hst, rfl⟩
    · exact hstill
    · have hok := (Journal.reachable hI.warden).attaches i
      rw [hst] at hok
      exact absurd hok.2.unrevoked ((hc i).attach_live (by rw [hst]; rfl))
  cases happens h with
  | signer | ask | view | serial | fail => exact hshut
  | warden _ hstep | take _ _ hstep => exact moved hstep

theorem admitted_step (hI : Sourced cfg S FreshIDs s) (hc : s.Current id (.admission n))
    (h : step cfg S s m = some t) (hmem : .admitted n adm ∈ t.warden.log)
    (hid : adm.grantID = id) : .admitted n adm ∈ s.warden.log := by
  have moved {act w} (hstep : Warden.step cfg s.warden act = some w)
      (hmem : .admitted n adm ∈ w.log) : .admitted n adm ∈ s.warden.log := by
    cases step_writes hstep with
    | quiet hlog _ => exact hlog ▸ hmem
    | take i p _ hlog _ => simpa [hlog] using hmem
    | record k adm' hst _ hlog _ =>
      rw [hlog] at hmem
      rcases List.mem_cons.mp hmem with heq | hold
      · cases heq
        subst hid
        have hsome := hc.told adm.info (.inr (by simp only [Asker.holds, hst]; rfl))
        rw [checked_unrevoked hI.warden hst] at hsome
        cases hsome
      · exact hold
  cases happens h with
  | signer | ask | view | serial | fail => exact hmem
  | warden _ hstep | take _ _ hstep => exact moved hstep hmem

theorem Sourced.run (hs : (site cfg S FreshIDs).Reachable (Serves FreshIDs) s)
    (hrun : (site cfg S FreshIDs).Run (Serves FreshIDs) s t) : Sourced cfg S FreshIDs t :=
  .reachable (fun _ _ h => h) (hs.run hrun)

theorem Site.Current.run (hs : (site cfg S FreshIDs).Reachable (Serves FreshIDs) s)
    (hrev : .revoked id ∈ s.signer.log) (hrun : (site cfg S FreshIDs).Run (Serves FreshIDs) s t) :
    .revoked id ∈ t.signer.log ∧ ∀ who, s.Current id who → t.Current id who := by
  induction hrun with
  | refl => exact ⟨hrev, fun _ hc => hc⟩
  | step hrun' hok hstep ih =>
    have hI := Sourced.run hs hrun'
    exact ⟨Signer.run_log hI.signer (signer_step hstep hok) ih.1,
      fun who hc => (ih.2 who hc).step hI ih.1 hstep⟩

/-- After a revocation, over every order of steps: whoever begins later has
read nothing older, and then neither an `Admit` nor an `Attach` of the grant
succeeds, whatever the signer could tell them. A poll that has read nothing
older and is answered leaves no object of the grant Open; and while no `Attach`
goes by an older answer it stays so for ever. -/
theorem revocation_reaches (hs : (site cfg S FreshIDs).Reachable (Serves FreshIDs) s)
    (hrev : .revoked id ∈ s.signer.log) (hrun : (site cfg S FreshIDs).Run (Serves FreshIDs) s t) :
    ((∀ n, s.warden.admits n = .idle → s.Current id (.admission n)) ∧
      (∀ i, s.warden.attaches i = .idle → s.Current id (.attach i)) ∧
      (s.warden.loop = .idle → s.Current id .poll)) ∧
    (∀ n adm, s.Current id (.admission n) → .admitted n adm ∈ t.warden.log → adm.grantID = id →
      .admitted n adm ∈ s.warden.log) ∧
    (∀ i j sess, s.Current id (.attach i) → t.warden.attaches i = .attached j sess →
      j.job.p.grantID ≠ id) ∧
    (∀ todo answer r u, s.Current id .poll → t.warden.loop = .polled todo id answer →
      answer ≠ .error .other → (site cfg S FreshIDs).step t (.warden (.run r)) = some u →
      Shut u.warden.shared.warden id) ∧
    ((∀ i, s.Current id (.attach i)) → Shut s.warden.shared.warden id →
      Shut t.warden.shared.warden id) := by
  have hIs := Sourced.run hs (.refl s)
  have hIt := Sourced.run hs hrun
  obtain ⟨-, hcurrent⟩ := Site.Current.run hs hrev hrun
  refine ⟨⟨fun n hidle => ?_, fun i hidle => ?_, fun hidle => ?_⟩, fun n adm hc hmem hid => ?_,
    fun i j sess hc hst hid => ?_, fun todo answer r u hc hst hother hstep => ?_,
    fun hc hshut => ?_⟩
  · exact .of_idle hIs (fun id => by simp [Asker.wants, hidle])
      (by simp [Asker.holds, hidle, AdmitState.told])
  · exact .of_idle hIs (fun id => by simp [Asker.wants, hidle])
      (by simp [Asker.holds, hidle, AttachState.told])
  · exact .of_idle hIs (fun id => by simp [Asker.wants, hidle])
      (by simp [Asker.holds, hidle, LoopState.told])
  · clear hIt hcurrent
    induction hrun with
    | refl => exact hmem
    | step hrun' _ hstep ih =>
      have hthen := (Site.Current.run hs hrev hrun').2 _ hc
      exact ih (admitted_step (.run hs hrun') hthen hstep hmem hid)
  · subst hid
    have hok := (Journal.reachable hIt.warden).attaches i
    rw [hst] at hok
    exact (hcurrent _ hc).attach_live (by rw [hst]; rfl) hok.2.1.unrevoked
  · have htakes : takes t.warden (.run r) = none := by simp [takes, hst]
    change step cfg S t (.warden (.run r)) = some u at hstep
    simp only [step, htakes, Warden.step, hst, loopNext, Option.map_some] at hstep
    cases hstep
    refine applyPoll_shut hother fun info hinfo => ?_
    subst hinfo
    exact (hcurrent _ hc).told info (.inr (by simp [Asker.holds, hst, LoopState.told]))
  · clear hIt hcurrent
    induction hrun with
    | refl => exact hshut
    | step hrun' _ hstep ih =>
      have hthen i := (Site.Current.run hs hrev hrun').2 _ (hc i)
      exact Shut.site_step (.run hs hrun') hthen hstep ih

namespace Sample

def revoked : List Move := login ++ [.signer (.revoke 1700000020 Signer.Sample.grantID)]

def polled : List Move :=
  List.replicate 3 (.warden (.run reading)) ++ query .poll ++ [.warden (.run reading)]

def open? (s : Site) : Bool :=
  (s.warden.shared.warden.addr? Signer.Sample.grantID).any fun a =>
    (s.warden.shared.warden.heap a).state == .opened

theorem not_shut (h : open? s = true) :
    ¬ Shut s.warden.shared.warden Signer.Sample.grantID := by
  intro hshut
  obtain ⟨a, ha, hopen⟩ := Option.any_eq_true .. |>.mp h
  exact hshut a ha (beq_iff_eq.mp hopen)

def answered? (s : Site) : Bool :=
  match s.warden.loop with
  | .polled _ id (.ok _) => id == Signer.Sample.grantID
  | _ => false

theorem of_answered? (h : answered? s = true) :
    ∃ todo answer, s.warden.loop = .polled todo Signer.Sample.grantID answer ∧
      answer ≠ .error .other := by
  unfold answered? at h
  split at h
  · rename_i hst
    rw [beq_iff_eq] at h
    exact ⟨_, _, h ▸ hst, by simp⟩
  · cases h

end Sample

/-- A visitor is logged in when the grant is revoked; the next poll closes it. -/
theorem revocation_reaches_sample : ∃ s t u,
    (site Warden.Sample.config Signer.Sample.sample FreshIDs).Reachable (Serves FreshIDs) s ∧
    .revoked Signer.Sample.grantID ∈ s.signer.log ∧
    (site Warden.Sample.config Signer.Sample.sample FreshIDs).Run (Serves FreshIDs) s t ∧
    (site Warden.Sample.config Signer.Sample.sample FreshIDs).step t
      (.warden (.run Sample.reading)) = some u ∧
    ¬ Shut s.warden.shared.warden Signer.Sample.grantID ∧
    Shut u.warden.shared.warden Signer.Sample.grantID := by
  have hexec : ((site Warden.Sample.config Signer.Sample.sample FreshIDs).exec (Serves FreshIDs)
      Sample.start Sample.revoked).any (fun s =>
        decide (.revoked Signer.Sample.grantID ∈ s.signer.log) && Sample.open? s &&
        s.warden.loop.isIdle &&
        ((site Warden.Sample.config Signer.Sample.sample FreshIDs).exec (Serves FreshIDs) s
          Sample.polled).any fun t => Sample.answered? t &&
            ((site Warden.Sample.config Signer.Sample.sample FreshIDs).step t
              (.warden (.run Sample.reading))).isSome) = true := by
    decide +kernel
  obtain ⟨s, hs, hfacts⟩ := Option.any_eq_true .. |>.mp hexec
  simp only [Bool.and_eq_true, decide_eq_true_eq] at hfacts
  obtain ⟨⟨⟨hrev, hopen⟩, hloop⟩, hpoll⟩ := hfacts
  have hidle : s.warden.loop = .idle := by
    unfold LoopState.isIdle at hloop
    split at hloop
    · assumption
    · cases hloop
  obtain ⟨t, ht, hthen⟩ := Option.any_eq_true .. |>.mp hpoll
  rw [Bool.and_eq_true] at hthen
  obtain ⟨todo, answer, hst, hother⟩ := Sample.of_answered? hthen.1
  obtain ⟨u, hu⟩ := Option.isSome_iff_exists.mp hthen.2
  have hreach : (site Warden.Sample.config Signer.Sample.sample FreshIDs).Reachable
      (Serves FreshIDs) s := Sample.start_reachable.run (.of_exec hs)
  obtain ⟨⟨-, -, hcurrent⟩, -, -, hshut, -⟩ := revocation_reaches hreach hrev (.of_exec ht)
  exact ⟨s, t, u, hreach, hrev, .of_exec ht, hu, Sample.not_shut hopen,
    hshut todo answer _ u (hcurrent hidle) hst hother hu⟩

end Grantd.Warden.Lifetime
