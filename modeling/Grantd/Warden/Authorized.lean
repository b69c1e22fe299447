import Grantd.Warden.Site

/-!
# Who is behind a session

sshd verifies a certificate under the CA key and has its key id and its serial
passed to the warden, which asks the signer. So every session that comes in
goes back, through its own admission and the one certificate of its grant, to a
redemption that a holder of the grant's secret made for this host, this agent
and this SSH key.
-/

namespace Grantd.Signer

open Base Protocol

variable {S : Signer} {id : GoString}

theorem returned_of_serial (hs : (machine S).Reachable FreshIDs s)
    (h : s.store.certificateSerial id = some serial) :
    ∃ i cert, .returned i id cert ∈ s.log ∧ cert.serial = serial := by
  obtain ⟨row, hrow, rfl⟩ := Option.map_eq_some_iff.mp h
  have hid : row.grantID = id := by simpa using List.find?_some hrow
  obtain ⟨i, cert, hret, -⟩ := (Issuance.reachable hs).rows row (List.mem_of_find?_eq_some hrow)
  rw [hid] at hret
  refine ⟨i, cert, hret, Option.some.inj ?_⟩
  rw [← certificateSerial_returned hs hret, h]

end Grantd.Signer

namespace Grantd.Warden.Lifetime

open Base
open Signer (LifetimeGrant FreshIDs Made Unforged Held grantInfo lifetimeGrant withSerial
  formatUint)

variable {cfg : Config} {S : Signer} {s t : Site} {id : GoString}

def Presented (log : List Signer.Event) (c : AdmitCall) : Prop :=
  ∃ i g cert, .issued i g cert ∈ log ∧ c.keyID = cert.keyID ∧ c.serial = formatUint cert.serial

/-- sshd has the warden asked about certificates it has verified. -/
def Verified (s : Site) : Move → Prop
  | .warden (.admitStart _ c) => Presented s.signer.log c
  | _ => True

def call? : AdmitState → Option AdmitCall
  | .called c _ | .parent c _ _ | .allowed c _ _ | .answered c _ _ _ | .checked c _ _ _ => some c
  | .idle | .admitted _ | .refused _ => none

theorem admitStart_call? (h : call? (admitStart cfg w c) = some c') : c = c' := by
  unfold admitStart at h
  repeat' split at h
  all_goals cases h
  rfl

theorem admitNext_call? (h : admitNext n clock r m st = some (st', m', es))
    (hc : call? st' = some c) : call? st = some c := by
  cases st with
  | idle | admitted | refused => cases h
  | allowed =>
    cases h
    exact hc
  | called | parent | answered =>
    simp only [admitNext] at h
    split at h <;> cases h
    · cases hc
    · exact hc
  | checked =>
    simp only [admitNext] at h
    split at h <;> cases h <;> cases hc

theorem step_call? (h : Warden.step cfg w act = some w') (hc : call? (w'.admits n) = some c) :
    call? (w.admits n) = some c ∨ act = .admitStart n c := by
  cases act with
  | tick | exit =>
    cases h
    exact .inl hc
  | run | fork | collect | attachStart | attach =>
    simp only [Warden.step] at h
    split at h <;> cases h
    exact .inl hc
  | admitStart k c' =>
    simp only [Warden.step] at h
    split at h <;> cases h
    by_cases hk : n = k
    · subst hk
      simp only [Function.update_self] at hc
      exact .inr (by rw [admitStart_call? hc])
    · exact .inl (by simpa [Function.update_apply, hk] using hc)
  | admitStep k r =>
    simp only [Warden.step] at h
    split at h
    · cases h
    · rename_i hnext
      cases h
      by_cases hk : n = k
      · subst hk
        simp only [Function.update_self] at hc
        exact .inl (admitNext_call? hnext hc)
      · exact .inl (by simpa [Function.update_apply, hk] using hc)

theorem Presented.mono (h : Presented log c) (hsub : log ⊆ log') : Presented log' c := by
  obtain ⟨i, g, cert, hmem, heq⟩ := h
  exact ⟨i, g, cert, hsub hmem, heq⟩

variable (S) in
/-- Every admission was of a certificate of the CA, and by what the signer
said. -/
structure Backed (ok : Signer.State → Signer.Action → Prop) (s : Site) : Prop where
  calls : ∀ n c, call? (s.warden.admits n) = some c → Presented s.signer.log c
  admitted : ∀ n adm, .admitted n adm ∈ s.warden.log → Presented s.signer.log adm.call ∧
    ∃ u v, (Signer.machine S).Reachable ok u ∧ (Signer.machine S).Run ok u v ∧
      (Signer.machine S).Run ok v s.signer ∧
      grantInfo adm.grantID (lifetimeGrant u.store v.store adm.grantID) = .ok adm.info

section
variable {ok : Signer.State → Signer.Action → Prop} (hfresh : ∀ s a, ok s a → FreshIDs s a)
include hfresh

theorem Backed.step (hB : Backed S ok s) (hI : Sourced cfg S ok s) (hok : Serves ok s m)
    (hver : Verified s m) (h : step cfg S s m = some t) : Backed S ok t := by
  have moved {act w} (hact : ∀ n c, act = .admitStart n c → Presented s.signer.log c)
      (hstep : Warden.step cfg s.warden act = some w) : Backed S ok { s with warden := w } := by
    refine ⟨fun n c hc => ?_, fun n adm hmem => ?_⟩
    · rcases step_call? hstep hc with hold | heq
      · exact hB.calls n c hold
      · exact hact n c heq
    · cases step_writes hstep with
      | quiet hlog _ => exact hB.admitted n adm (hlog ▸ hmem)
      | take i p _ hlog _ => exact hB.admitted n adm (by simpa [hlog] using hmem)
      | record k adm' hst _ hlog _ =>
        rcases List.mem_cons.mp (hlog ▸ hmem) with heq | hold
        · cases heq
          refine ⟨hB.calls n adm.call (by rw [hst]; rfl), ?_⟩
          exact hI.told (.admission n) adm.grantID adm.info
            (.inr (by simp only [Asker.holds, hst]; rfl))
        · exact hB.admitted n adm hold
  cases happens h with
  | signer hstep =>
    have hrun : (Signer.machine S).Run ok s.signer _ := .of_step hok hstep
    have hlog := Signer.run_log (hI.signer.mono hfresh) (hrun.mono hfresh)
    refine ⟨fun n c hc => (hB.calls n c hc).mono hlog, fun n adm hmem => ?_⟩
    obtain ⟨hpres, u, v, hu, huv, hv, hinfo⟩ := hB.admitted n adm hmem
    exact ⟨hpres.mono hlog, u, v, hu, huv, hv.trans hrun, hinfo⟩
  | @warden act w _ hstep =>
    have hB' := moved (fun n c heq => by rw [heq] at hver; exact hver) hstep
    exact ⟨hB'.calls, hB'.admitted⟩
  | @take act who answer w id htakes hquery hstep =>
    have hB' := moved (fun n c heq => by cases act <;> cases heq; cases htakes) hstep
    exact ⟨hB'.calls, hB'.admitted⟩
  | ask | view | serial | fail => exact ⟨hB.calls, hB.admitted⟩

theorem Backed.reachable
    (hs : (site cfg S ok).Reachable (fun s m => Serves ok s m ∧ Verified s m) s) :
    Backed S ok s := by
  refine hs.induction (fun s hinit => ?_) fun s m t hs hB hok hstep => ?_
  · obtain ⟨-, hwarden, -⟩ := hinit
    refine ⟨fun n c hc => ?_, fun n adm hmem => ?_⟩
    · rw [hwarden.admits] at hc
      cases hc
    · rw [hwarden.log] at hmem
      cases hmem
  · exact hB.step hfresh (.reachable (fun _ _ h => h.1) hs) hok.1 hok.2 hstep

end

-- ---------------------------------------------------------------------------
-- Sessions
-- ---------------------------------------------------------------------------

/-- Ids are fresh, and no request was made by breaking HMAC. -/
def Honest (S : Signer) (maced : Bytes → Protocol.RedemptionPayload → Prop) (s : Signer.State)
    (a : Signer.Action) : Prop :=
  FreshIDs s a ∧ Made (Unforged S maced) s a

/-- What is behind the session of an `Attach`: the admission of its own sshd
process, the only certificate of its grant, and a payload that a holder of the
grant's secret has MAC'd, for this host, the agent of the key id and the key of
the certificate. The grant was neither revoked nor over when `Attach` asked. -/
structure Authorized (cfg : Config) (S : Signer)
    (maced : Bytes → Protocol.RedemptionPayload → Prop) (s : Site) (j : Placing) (sess : Session)
    (adm : Admission) (cert : Signer.Certificate) (r : Signer.GrantRow)
    (p : Protocol.RedemptionPayload) : Prop where
  admitted : .admitted j.job.p.call adm ∈ s.warden.log
  process : adm.sshd.pid = sess.pid ∧ adm.sshd.startTime = sess.startTime
  presented : adm.call.keyID = cert.keyID ∧ adm.call.serial = formatUint cert.serial
  returned : ∃ k, .returned k j.job.p.grantID cert ∈ s.signer.log
  only : ∀ k cert', .issued k j.job.p.grantID cert' ∈ s.signer.log → cert' = cert
  principal : cert.validPrincipals = [cfg.sshUser]
  held : Held S (Made (Unforged S maced)) s.signer r
  row : r.id = j.job.p.grantID
  holder : maced r.secret p
  host : Protocol.hostID S.crypto S.identity = .ok p.hostID
  grant : p.grantID = j.job.p.grantID
  agent : cert.keyID = Signer.keyID p.grantID p.agentID
  key : p.sshPublicKey = Protocol.publicSSHLine cert.key
  live : j.job.info.revokedAt = none ∧ j.job.checkedAt.toInt < cert.validBefore.toNat

/-- Behind every attached session stands the whole chain: its own admission, the
one certificate of its grant, and a payload under a MAC with the grant's secret. -/
theorem session_authorized (maced : Bytes → Protocol.RedemptionPayload → Prop)
    (hs : (site cfg S (Honest S maced)).Reachable
      (fun s m => Serves (Honest S maced) s m ∧ Verified s m) s)
    (h : s.warden.attaches i = .attached j sess) :
    ∃ adm cert r p, Authorized cfg S maced s j sess adm cert r p := by
  have hfresh : ∀ s a, Honest S maced s a → FreshIDs s a := fun _ _ h => h.1
  have hI : Sourced cfg S (Honest S maced) s := .reachable (fun _ _ h => h.1) hs
  have hsigner := hI.signer.mono hfresh
  -- The admission.
  have hJ := Journal.reachable hI.warden
  have hcall := hJ.attaches i
  rw [h] at hcall
  obtain ⟨htook, hjob, rfl⟩ := hcall
  obtain ⟨adm, heq, hsub⟩ := hJ.took i _ htook
  have hadmitted : .admitted j.job.p.call adm ∈ s.warden.log := hsub.subset (by simp)
  obtain ⟨⟨huser, ⟨agentID, hkey⟩, hserial⟩, -, hmatch⟩ := (hJ.admitted _ adm hadmitted).1
  obtain ⟨hpid, hstart, hsame, -⟩ := hjob.fits
  rw [heq] at hpid hstart hsame
  have hgrant : adm.grantID = j.job.p.grantID := (congrArg Pending.grantID heq).symm
  obtain ⟨⟨k₀, g, cert₀, hissued₀, hkeyID, -⟩, u, v, hu, huv, hv, hinfo⟩ :=
    (Backed.reachable hfresh hs).admitted _ adm hadmitted
  rw [hgrant] at hinfo hkey
  -- The certificate that was presented is one of the grant.
  obtain ⟨hvalid, ⟨a, ha, hcertID⟩, -⟩ := Signer.certificate_ids hsigner hissued₀
  have hg : g = j.job.p.grantID := by
    rw [hkeyID, hcertID, Signer.parseKeyID_keyID hvalid ha] at hkey
    exact congrArg Prod.fst (Option.some.inj hkey)
  subst hg
  -- The serial it was admitted on is that of a certificate that was returned.
  obtain ⟨k, cert, hret, hcert⟩ : ∃ k cert, .returned k j.job.p.grantID cert ∈ s.signer.log ∧
      formatUint cert.serial = adm.call.serial := by
    obtain ⟨-, row, hrow, hrowinfo⟩ := Signer.grantInfo_eq_ok.mp hinfo
    rw [← hmatch, hrowinfo] at hserial ⊢
    simp only [withSerial, Table.key_get? hrow] at hserial ⊢
    cases hn : v.store.certificateSerial j.job.p.grantID with
    | none =>
      rw [hn] at hserial
      exact absurd rfl hserial
    | some n =>
      have hvF := (hu.mono hfresh).run (huv.mono hfresh)
      obtain ⟨k, cert, hret, rfl⟩ := Signer.returned_of_serial hvF hn
      exact ⟨k, cert, Signer.run_log hvF (hv.mono hfresh) hret, rfl⟩
  have hissued := ((Signer.Issuance.reachable hsigner).returned k _ cert hret).1
  have honly k' cert' (h : .issued k' j.job.p.grantID cert' ∈ s.signer.log) : cert' = cert :=
    ((Signer.Inv.reachable hsigner).issued_unique h hissued).2
  obtain rfl := honly k₀ cert₀ hissued₀
  -- The holder of the secret.
  have htraced := Signer.Traced.reachable (fun _ _ => id) (hI.signer.mono fun _ _ h => h.2)
  obtain ⟨c, _, _, r, hheld, hcertified, hp, hreq⟩ := htraced.issued k _ cert₀ hissued
  obtain ⟨hholder, hhost, hagent, hline⟩ := hcertified.holder hreq
  -- What `Attach` was told of the grant is what the certificate carries.
  obtain ⟨u', v', hu', huv', hv', hinfo'⟩ :=
    hI.told (.attach i) j.job.p.grantID j.job.info (.inr (by simp only [Asker.holds, h]; rfl))
  obtain ⟨-, row, hrow, hrowinfo⟩ := Signer.grantInfo_eq_ok.mp hinfo'
  have hid : row.id = j.job.p.grantID := Table.key_get? hrow
  have hcarries := (Signer.Carries.run (hu'.mono hfresh) (hid ▸ hrow)
    ((huv'.trans hv').mono hfresh)).certificates k cert₀ (hid ▸ hissued)
  have hrowUser : row.sshUser = j.job.info.sshUser := by
    rw [hrowinfo]
    unfold withSerial
    split <;> rfl
  have hrowExpires : row.expiresAt = j.job.info.expiresAt := by
    rw [hrowinfo]
    unfold withSerial
    split <;> rfl
  refine ⟨adm, cert₀, r, c.req.payload, hadmitted, ⟨hpid, hstart⟩, ⟨hkeyID, hcert.symm⟩, ⟨k, hret⟩,
    honly, ?_, hheld, hcertified.claims.id.trans hp, hholder, hhost, hp, hagent, hline,
      hjob.unrevoked, ?_⟩
  · rw [hcarries.1, hrowUser, hjob.user, ← hsame]
    exact congrArg (fun u => [u]) huser
  · rw [hcarries.2, hrowExpires]
    exact (Int64.lt_iff_toInt_lt.mp hjob.unexpired).trans_le (Signer.toInt_le_toUInt64 _)

namespace Sample

open Signer.Sample (authorizing maced request redirected)

def presented (log : List Signer.Event) (c : AdmitCall) : Bool :=
  log.any fun e => e.certificate?.any fun x =>
    c.keyID == x.2.2.keyID && c.serial == formatUint x.2.2.serial

theorem presented_sound (h : presented log c = true) : Presented log c := by
  obtain ⟨e, he, hcert⟩ := List.any_eq_true.mp h
  obtain ⟨⟨i, g, cert⟩, hx, heq⟩ := Option.any_eq_true .. |>.mp hcert
  cases e with
  | issued =>
    cases hx
    simp only [Bool.and_eq_true, beq_iff_eq] at heq
    exact ⟨i, g, cert, he, heq⟩
  | _ => cases hx

def allowed (s : Site) : Move → Bool
  | .signer a => decide (FreshIDs s.signer a ∧
      Made (fun req => req = request ∨ req = redirected) s.signer a)
  | .warden (.admitStart _ c) => presented s.signer.log c
  | _ => true

theorem allowed_sound (h : allowed s m = true) :
    Serves (Honest authorizing maced) s m ∧ Verified s m := by
  cases m with
  | signer a =>
    obtain ⟨hfresh, hmade⟩ := of_decide_eq_true h
    exact ⟨⟨hfresh, hmade.mono fun _ => Signer.Sample.unforged⟩, trivial⟩
  | warden act =>
    cases act with
    | admitStart n c => exact ⟨trivial, presented_sound h⟩
    | _ => exact ⟨trivial, trivial⟩
  | _ => exact ⟨trivial, trivial⟩

def attached? (s : Site) : Option (Placing × Session) :=
  match s.warden.attaches 0 with
  | .attached j sess => some (j, sess)
  | _ => none

theorem of_attached? (h : attached? s = some (j, sess)) :
    s.warden.attaches 0 = .attached j sess := by
  unfold attached? at h
  split at h <;> cases h
  assumption

end Sample

theorem session_authorized_sample : ∃ s j sess adm cert r p,
    (site Warden.Sample.config Signer.Sample.authorizing
      (Honest Signer.Sample.authorizing Signer.Sample.maced)).Reachable
      (fun s m => Serves (Honest Signer.Sample.authorizing Signer.Sample.maced) s m ∧ Verified s m)
      s ∧
    s.warden.attaches 0 = .attached j sess ∧ sess.pid = 4242 ∧
    Authorized Warden.Sample.config Signer.Sample.authorizing Signer.Sample.maced s j sess adm cert
      r p := by
  have hexec : ((site Warden.Sample.config Signer.Sample.authorizing
      (Honest Signer.Sample.authorizing Signer.Sample.maced)).exec
      (fun s m => Sample.allowed s m = true) Sample.start Sample.login).any
      (fun s => (Sample.attached? s).any fun x => x.2.pid == 4242) = true := by
    decide +kernel
  obtain ⟨s, hs, hsome⟩ := Option.any_eq_true .. |>.mp hexec
  obtain ⟨⟨j, sess⟩, hattached, hpid⟩ := Option.any_eq_true .. |>.mp hsome
  have hst := Sample.of_attached? hattached
  have hreach := Sample.start_reachable.run ((Machine.Run.of_exec hs).mono
    fun _ _ h => Sample.allowed_sound h)
  obtain ⟨adm, cert, r, p, hauth⟩ := session_authorized Signer.Sample.maced hreach hst
  exact ⟨s, j, sess, adm, cert, r, p, hreach, hst, beq_iff_eq.mp hpid, hauth⟩

end Grantd.Warden.Lifetime
