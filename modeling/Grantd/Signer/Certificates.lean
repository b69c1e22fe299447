import Grantd.Signer.Decision
import Grantd.Signer.Records
import Grantd.Signer.SingleUse

/-!
# Where certificates come from

Every certificate in the log goes back to a request that passed all checks and
to the row it claimed, and the table of certificates holds exactly those that
were returned. A conflict on `grant_id`, which `RecordCertificate` passes over
in silence, does not come up.
-/

namespace Grantd.Signer

open Base Protocol

variable {S : Signer} {ok : State → Action → Prop} {P : RedemptionRequest → Prop}

-- ---------------------------------------------------------------------------
-- What the calls have established
-- ---------------------------------------------------------------------------

variable (S) in
/-- The request has passed every check before the first write, on a host row
with the signer's own id. -/
structure RedeemCall.Passed (c : RedeemCall) (h : Host) (key : SSHPublicKey) : Prop where
  checks : (do checkVersion c.req.payload; S.checkRequest (some h) c.now.unix c.req) = .ok (h, key)
  host : hostID S.crypto S.identity = .ok h.hostID

variable (S) in
/-- The row was live when the call claimed it, under a proof of its secret. -/
structure RedeemCall.Claims (c : RedeemCall) (r : GrantRow) : Prop where
  id : r.id = c.req.payload.grantID
  unrevoked : r.revokedAt = none
  unexpired : c.now.unix < r.expiresAt
  unredeemed : r.redeemedAt = none
  proof : S.verifyProof c.req.payload r.secret c.req.proof = .ok true

variable (S) in
structure Certified (c : RedeemCall) (h : Host) (key : SSHPublicKey) (r : GrantRow)
    (cert : Certificate) : Prop where
  passed : c.Passed S h key
  claims : c.Claims S r
  issued : ∃ draw : Draw, issue S.ca draw.nonce
    (certRequest c.now c.req.payload key ⟨r.sshUser, r.expiresAt⟩ draw.serial) = .ok cert

variable (S) in
def RedeemState.Passed : RedeemState → Prop
  | .checked c h key | .pruned c h key | .remembered c h key | .claimed c h key _
  | .issued c h key _ _ => c.Passed S h key
  | .idle | .started _ | .done _ => True

def RedeemState.request : RedeemState → Option RedemptionRequest
  | .started c | .checked c _ _ | .pruned c _ _ | .remembered c _ _ | .claimed c _ _ _
  | .issued c _ _ _ _ => some c.req
  | .idle | .done _ => none

/-- Every request that is made meets `P`. -/
def Made (P : RedemptionRequest → Prop) (_ : State) : Action → Prop
  | .redeemStart _ _ req => P req
  | _ => True

theorem Made.mono (hPQ : ∀ req, P req → Q req) (h : Made P s a) : Made Q s a := by
  cases a with
  | redeemStart i now req => exact hPQ req h
  | _ => trivial

theorem made_true : Made (fun _ => True) s a := by
  cases a <;> trivial

instance [DecidablePred P] (s : State) (a : Action) : Decidable (Made P s a) :=
  match a with
  | .redeemStart _ _ req => inferInstanceAs (Decidable (P req))
  | .tick _ | .enroll .. | .createStart .. | .create .. | .redeem .. | .redeemFail _ | .revoke ..
  | .markPublished .. | .purgeGrants .. | .purgeNonces .. => inferInstanceAs (Decidable True)

variable (S) in
/-- The row was in the table at some point of a run that leads to `s`. -/
def Held (ok : State → Action → Prop) (s : State) (r : GrantRow) : Prop :=
  ∃ s₁, (machine S).Reachable ok s₁ ∧ (machine S).Run ok s₁ s ∧
    s₁.store.grants.get? r.id = some r

variable (S ok P) in
/-- Each certificate goes back to a request that was made and to the row it
claimed. -/
structure Traced (s : State) : Prop where
  host : ∀ h, s.store.host = some h → hostID S.crypto S.identity = .ok h.hostID
  passed : ∀ i, (s.redeems i).Passed S
  made : ∀ i req, (s.redeems i).request = some req → P req
  claimed : ∀ i c h key claim, s.redeems i = .claimed c h key claim →
    ∃ r, Held S ok s r ∧ c.Claims S r ∧ claim = ⟨r.sshUser, r.expiresAt⟩
  issued : ∀ i id cert, .issued i id cert ∈ s.log → ∃ c h key r, Held S ok s r ∧
    Certified S c h key r cert ∧ c.req.payload.grantID = id ∧ P c.req

/-- The table of certificates holds those that were returned, and a call returns
the one it was issued. -/
structure Issuance (s : State) : Prop where
  pending : ∀ i c h key claim cert, s.redeems i = .issued c h key claim cert →
    .issued i c.req.payload.grantID cert ∈ s.log ∧ ∀ id cert', .returned i id cert' ∉ s.log
  returned : ∀ i id cert, .returned i id cert ∈ s.log → .issued i id cert ∈ s.log ∧
    ∃ row, s.store.certificateFor id = some row ∧ row.serial = cert.serial.toInt64
  rows : ∀ row ∈ s.store.certificates.table.rows, ∃ i cert,
    .returned i row.grantID cert ∈ s.log ∧ row.serial = cert.serial.toInt64

theorem Certified.row (h : Certified S c hst key r cert) :
    cert.validPrincipals = [r.sshUser] ∧ cert.validBefore = r.expiresAt.toUInt64 := by
  obtain ⟨draw, hissue⟩ := h.issued
  refine ⟨(issue_of hissue).validPrincipals, (issue_of hissue).validBefore.trans ?_⟩
  simp only [certRequest, Time.unix_ofUnix]

theorem Held.step (h : Held S ok s r) (hok : ok s a) (hstep : step S s a = some t) :
    Held S ok t r := by
  obtain ⟨s₁, hreach, hrun, hrow⟩ := h
  exact ⟨s₁, hreach, hrun.step hok hstep, hrow⟩

theorem redeemNext_passed (h : redeemNext S i draw s st = some (st', s', es))
    (hhost : ∀ h, s.host = some h → hostID S.crypto S.identity = .ok h.hostID)
    (hst : st.Passed S) : st'.Passed S := by
  cases st with
  | idle | done => cases h
  | started c =>
    simp only [redeemNext] at h
    split at h
    · cases h
      trivial
    · rename_i hst key hchecks
      cases h
      have hsome := ((checkRequest_eq_ok S).mp hchecks).2.1
      rw [hsome] at hchecks
      exact ⟨hchecks, hhost hst hsome⟩
  | checked c hst' key =>
    cases h
    exact hst
  | pruned c hst' key =>
    simp only [redeemNext] at h
    split at h <;> cases h
    · trivial
    · exact hst
  | remembered c hst' key =>
    simp only [redeemNext] at h
    split at h
    · cases h
      trivial
    · split at h <;> cases h
      · trivial
      · exact hst
  | claimed c hst' key claim =>
    simp only [redeemNext] at h
    split at h <;> cases h
    · trivial
    · exact hst
  | issued c hst' key claim cert =>
    simp only [redeemNext] at h
    split at h <;> cases h <;> trivial

theorem redeemNext_request (h : redeemNext S i draw s st = some (st', s', es)) :
    st'.request = st.request ∨ ∃ result, st' = .done result := by
  cases st with
  | idle | done => cases h
  | started c | pruned c hst key | claimed c hst key claim =>
    simp only [redeemNext] at h
    split at h <;> cases h
    · exact .inr ⟨_, rfl⟩
    · exact .inl rfl
  | checked c hst key =>
    cases h
    exact .inl rfl
  | remembered c hst key =>
    simp only [redeemNext] at h
    split at h
    · cases h
      exact .inr ⟨_, rfl⟩
    · split at h <;> cases h
      · exact .inr ⟨_, rfl⟩
      · exact .inl rfl
  | issued c hst key claim cert =>
    simp only [redeemNext] at h
    split at h <;> cases h <;> exact .inr ⟨_, rfl⟩

theorem request_set {calls : Nat → RedeemState} {st : RedeemState}
    (h : (set calls i st j).request = some req) :
    (calls j).request = some req ∨ (j = i ∧ st.request = some req) := by
  by_cases hj : j = i
  · subst hj
    rw [set_same] at h
    exact .inr ⟨rfl, h⟩
  · rw [set_of_ne _ _ hj] at h
    exact .inl h

theorem recordCertificate_new {s s' : Store} (h : s.recordCertificate row = some s')
    (hnone : s.certificateFor row.grantID = none) :
    s'.certificates.table.rows = s.certificates.table.rows ++ [row] := by
  unfold Store.recordCertificate at h
  split at h
  · split at h
    · cases h
    · rename_i hins
      cases h
      exact (Table.insert_eq_some hins).2
  · contradiction

theorem certificateFor_append {s s' : Store}
    (h : s'.certificates.table.rows = s.certificates.table.rows ++ [row]) (id : GoString) :
    s'.certificateFor id =
      (s.certificateFor id).or (if row.grantID = id then some row else none) := by
  simp only [Store.certificateFor, h, List.find?_append, List.find?_singleton, decide_eq_true_eq]

theorem Inv.issued_unique {id : GoString} (hs : Inv s) (h : .issued i id cert ∈ s.log)
    (h' : .issued j id cert' ∈ s.log) : i = j ∧ cert = cert' := by
  rcases pairwise_mem hs.order h h' with heq | hne | hne
  · cases heq
    exact ⟨rfl, rfl⟩
  · exact absurd rfl hne
  · exact absurd rfl hne

-- ---------------------------------------------------------------------------
-- Steps
-- ---------------------------------------------------------------------------

structure Aside (S : Signer) (s t : State) : Prop where
  certificates : t.store.certificates = s.store.certificates
  host : ∀ h, t.store.host = some h →
    s.store.host = some h ∨ hostID S.crypto S.identity = .ok h.hostID
  calls : ∀ i, t.redeems i = s.redeems i ∨ (∃ c, t.redeems i = .started c) ∨
    ∃ result, t.redeems i = .done result
  log : ∃ es, t.log = es ++ s.log ∧ ∀ e ∈ es, e.call = none

theorem Aside.quiet (hcerts : t.store.certificates = s.store.certificates)
    (hhost : t.store.host = s.store.host) (hcalls : t.redeems = s.redeems)
    (hlog : t.log = s.log) : Aside S s t :=
  ⟨hcerts, fun _ h => .inl (hhost ▸ h), fun _ => .inl (by rw [hcalls]), [], hlog, by simp⟩

theorem Aside.set_call (hst : (∃ c, st = .started c) ∨ ∃ result, st = .done result) :
    Aside S s { s with redeems := set s.redeems i st } := by
  refine ⟨rfl, fun _ h => .inl h, fun j => ?_, [], rfl, by simp⟩
  by_cases hj : j = i
  · subst hj
    exact .inr (by simpa using hst)
  · exact .inl (set_of_ne _ _ hj)

theorem enroll_aside : Aside S s
    { s with store := (S.enroll now sshUser hostname port line s.store).2 } := by
  unfold enroll
  split
  · exact .quiet rfl rfl rfl rfl
  · rename_i host hok
    refine ⟨?_, fun h hh => .inr ?_, fun _ => .inl rfl, [], rfl, by simp⟩
    · unfold Store.setHost
      split <;> rfl
    · simp only [Store.setHost] at hh
      have hid := (enrollment_enrolled hok).hostID
      split at hh <;> cases hh <;> exact hid

theorem step_aside (h : step S s a = some t) :
    Aside S s t ∨ ∃ i draw st store es, redeemNext S i draw s.store (s.redeems i) =
        some (st, store, es) ∧
      t = { s with store, redeems := set s.redeems i st, log := es ++ s.log } := by
  cases acts h with
  | tick | refuse | start | create | markPublished | purgeGrants | purgeNonces =>
    exact .inl (.quiet rfl rfl rfl rfl)
  | enroll hframe => exact .inl (hframe ▸ enroll_aside)
  | insert => exact .inl ⟨rfl, fun _ h => .inl h, fun _ => .inl rfl, [_], rfl, by simp [Event.call]⟩
  | redeemStart => exact .inl (.set_call (.inl ⟨_, rfl⟩))
  | redeem hnext => exact .inr ⟨_, _, _, _, _, hnext, rfl⟩
  | redeemFail => exact .inl (.set_call (.inr ⟨_, rfl⟩))
  | revoke =>
    refine .inl ⟨rfl, fun _ h => .inl h, fun _ => .inl rfl, _, rfl, fun e he => ?_⟩
    split at he
    · cases List.mem_singleton.mp he
      rfl
    · cases he

theorem step_request (h : step S s a = some t) (hreq : (t.redeems i).request = some req) :
    (s.redeems i).request = some req ∨ ∃ now, a = .redeemStart i now req := by
  cases acts h with
  | tick | enroll | refuse | start | create | insert | revoke | markPublished | purgeGrants
  | purgeNonces => exact .inl hreq
  | @redeemStart j now req' =>
    rcases request_set hreq with hold | ⟨rfl, hnew⟩
    · exact .inl hold
    · cases hnew
      exact .inr ⟨now, rfl⟩
  | redeem hnext =>
    rcases request_set hreq with hold | ⟨rfl, hnew⟩
    · exact .inl hold
    · rcases redeemNext_request hnext with heq | ⟨result, rfl⟩
      · exact .inl (heq ▸ hnew)
      · cases hnew
  | redeemFail =>
    rcases request_set hreq with hold | ⟨-, hnew⟩
    · exact .inl hold
    · cases hnew

-- ---------------------------------------------------------------------------
-- Every certificate has a request and a row
-- ---------------------------------------------------------------------------

theorem Traced.initial (h : Initial s) : Traced S ok P s := by
  obtain ⟨hstore, hredeems, -, hlog⟩ := h
  refine ⟨by simp [hstore, Store.empty], fun i => ?_, fun i req hreq => ?_,
    fun i c h' key claim hst => ?_, by simp [hlog]⟩
  · rw [hredeems i]
    trivial
  · rw [hredeems i] at hreq
    cases hreq
  · rw [hredeems i] at hst
    cases hst

theorem Traced.aside (hs : Traced S ok P s) (h : Aside S s t)
    (hheld : ∀ r, Held S ok s r → Held S ok t r)
    (hmade : ∀ i req, (t.redeems i).request = some req → P req) : Traced S ok P t := by
  obtain ⟨es, hlog, hes⟩ := h.log
  refine ⟨fun h' hh' => ?_, fun i => ?_, hmade, fun i c h' key claim hst => ?_,
    fun i id cert hi => ?_⟩
  · rcases h.host h' hh' with hsame | hnew
    · exact hs.host h' hsame
    · exact hnew
  · rcases h.calls i with heq | ⟨c, heq⟩ | ⟨result, heq⟩ <;> rw [heq]
    · exact hs.passed i
    · trivial
    · trivial
  · rcases h.calls i with heq | ⟨c', heq⟩ | ⟨result, heq⟩ <;> rw [heq] at hst
    · obtain ⟨r, hr, hrest⟩ := hs.claimed i c h' key claim hst
      exact ⟨r, hheld r hr, hrest⟩
    · cases hst
    · cases hst
  · rw [hlog, List.mem_append] at hi
    obtain ⟨c, h', key, r, hr, hrest⟩ :=
      hs.issued i id cert (hi.resolve_left fun he => by simpa [Event.call] using hes _ he)
    exact ⟨c, h', key, r, hheld r hr, hrest⟩

/-- In a part of a call the other calls are where they were, so only this call
and its events matter. -/
theorem Traced.part (hs : Traced S ok P s) (hheld : ∀ r, Held S ok s r → Held S ok t r)
    (hmade : ∀ i req, (t.redeems i).request = some req → P req)
    (hhost : t.store.host = s.store.host) (hcalls : t.redeems = set s.redeems i st)
    (hlog : t.log = es ++ s.log) (hpassed : st.Passed S)
    (hclaimed : ∀ c h key claim, st = .claimed c h key claim →
      ∃ r, Held S ok t r ∧ c.Claims S r ∧ claim = ⟨r.sshUser, r.expiresAt⟩)
    (hissued : ∀ j id cert, .issued j id cert ∈ es → ∃ c h key r, Held S ok t r ∧
      Certified S c h key r cert ∧ c.req.payload.grantID = id ∧ P c.req) : Traced S ok P t := by
  refine ⟨fun h' hh' => hs.host h' (hhost ▸ hh'), fun j => ?_, hmade,
    fun j c h' key claim hj => ?_, fun j id cert hj => ?_⟩
  · rw [hcalls]
    by_cases hji : j = i
    · simpa [hji] using hpassed
    · simpa [hji] using hs.passed j
  · rw [hcalls] at hj
    by_cases hji : j = i
    · rw [hji, set_same] at hj
      exact hclaimed c h' key claim hj
    · rw [set_of_ne _ _ hji] at hj
      obtain ⟨r, hr, hrest⟩ := hs.claimed j c h' key claim hj
      exact ⟨r, hheld r hr, hrest⟩
  · rw [hlog] at hj
    rcases List.mem_append.mp hj with hnew | hold
    · exact hissued j id cert hnew
    · obtain ⟨c, h', key, r, hr, hrest⟩ := hs.issued j id cert hold
      exact ⟨c, h', key, r, hheld r hr, hrest⟩

theorem Traced.step (hs : Traced S ok P s) (hreach : (machine S).Reachable ok s) (hok : ok s a)
    (hreq : Made P s a) (h : step S s a = some t) : Traced S ok P t := by
  have hheld (r : GrantRow) (hr : Held S ok s r) : Held S ok t r := hr.step hok h
  have hmade (i : Nat) (req : RedemptionRequest) (hi : (t.redeems i).request = some req) :
      P req := by
    rcases step_request h hi with hold | ⟨now, rfl⟩
    · exact hs.made i req hold
    · exact hreq
  rcases step_aside h with haside | ⟨i, draw, st, store, es, hnext, rfl⟩
  · exact hs.aside haside hheld hmade
  · have hpassed := redeemNext_passed hnext hs.host (hs.passed i)
    have hstep := redeemNext_step S hnext
    have hcalled := hs.claimed i
    have hasked := hs.made i
    have hpass := hs.passed i
    generalize s.redeems i = st₀ at hstep hcalled hasked hpass
    cases hstep with
    | early hbefore hafter hgrants hcerts hhost =>
      refine hs.part hheld hmade hhost rfl rfl hpassed (fun c h' key claim hst => ?_) (by simp)
      rcases hafter with hb | ⟨e, rfl⟩
      · subst hst
        cases hb
      · cases hst
    | @claim c h' key g hget hrev hexp hred hproof =>
      refine hs.part hheld hmade rfl rfl rfl hpassed (fun c' h'' key' claim hst => ?_) (by simp)
      cases hst
      have hid : g.id = c.req.payload.grantID := Table.key_get? hget
      exact ⟨g, hheld g ⟨s, hreach, .refl s, hid ▸ hget⟩, ⟨hid, hrev, hexp, hred, hproof⟩, rfl⟩
    | @issue c h' key claim cert hissue =>
      obtain ⟨r, hr, hclaims, rfl⟩ := hcalled c h' key claim rfl
      refine hs.part hheld hmade rfl rfl rfl hpassed (fun _ _ _ _ hst => by cases hst)
        fun j id cert' hj => ?_
      cases List.mem_singleton.mp hj
      exact ⟨c, h', key, r, hheld r hr, ⟨hpass, hclaims, draw, hissue⟩, rfl, hasked c.req rfl⟩
    | stop hnot =>
      exact hs.part hheld hmade rfl rfl rfl hpassed (fun _ _ _ _ hst => by cases hst) (by simp)
    | record hrec =>
      exact hs.part hheld hmade (Store.recordCertificate_grants hrec).2.1 rfl rfl hpassed
        (fun _ _ _ _ hst => by cases hst) (by simp)

theorem Traced.reachable (hmade : ∀ s a, ok s a → Made P s a) (hs : (machine S).Reachable ok s) :
    Traced S ok P s := by
  obtain ⟨s₀, hinit, hrun⟩ := hs
  induction hrun with
  | refl => exact .initial hinit
  | step hrun hok hstep ih => exact ih.step ⟨s₀, hinit, hrun⟩ hok (hmade _ _ hok) hstep

-- ---------------------------------------------------------------------------
-- The table of certificates
-- ---------------------------------------------------------------------------

theorem Issuance.aside (hs : Issuance s) (h : Aside S s t) : Issuance t := by
  obtain ⟨es, hlog, hes⟩ := h.log
  have hmem {e : Event} (hcall : e.call ≠ none) : e ∈ t.log ↔ e ∈ s.log := by
    rw [hlog, List.mem_append]
    exact or_iff_right fun he => hcall (hes e he)
  refine ⟨fun i c h' key claim cert hst => ?_, fun i id cert hr => ?_, fun row hrow => ?_⟩
  · rcases h.calls i with heq | ⟨c', heq⟩ | ⟨result, heq⟩ <;> rw [heq] at hst
    · obtain ⟨hissued, hfirst⟩ := hs.pending i c h' key claim cert hst
      exact ⟨(hmem (by simp [Event.call])).mpr hissued,
        fun id cert' hc => hfirst id cert' ((hmem (by simp [Event.call])).mp hc)⟩
    · cases hst
    · cases hst
  · obtain ⟨hi, row, hrow, hserial⟩ := hs.returned i id cert ((hmem (by simp [Event.call])).mp hr)
    refine ⟨(hmem (by simp [Event.call])).mpr hi, row, ?_, hserial⟩
    rwa [Store.certificateFor, h.certificates]
  · rw [h.certificates] at hrow
    obtain ⟨i, cert, hr, hserial⟩ := hs.rows row hrow
    exact ⟨i, cert, (hmem (by simp [Event.call])).mpr hr, hserial⟩

/-- A part of a call that writes no certificate and returns none. -/
theorem Issuance.part (hs : Issuance s) (hcerts : t.store.certificates = s.store.certificates)
    (hcalls : t.redeems = set s.redeems i st) (hlog : t.log = es ++ s.log)
    (hpending : ∀ c h key claim cert, st = .issued c h key claim cert →
      .issued i c.req.payload.grantID cert ∈ t.log ∧ ∀ id cert', .returned i id cert' ∉ t.log)
    (hreturned : ∀ j id cert, .returned j id cert ∉ es) : Issuance t := by
  have hsub : s.log ⊆ t.log := fun e he => hlog ▸ List.mem_append_right _ he
  have hold {j : Nat} {id : GoString} {cert : Certificate}
      (hc : .returned j id cert ∈ t.log) : .returned j id cert ∈ s.log := by
    rw [hlog] at hc
    exact (List.mem_append.mp hc).resolve_left (hreturned j id cert)
  refine ⟨fun j c h key claim cert hj => ?_, fun j id cert hj => ?_, fun row hrow => ?_⟩
  · rw [hcalls] at hj
    by_cases hji : j = i
    · subst hji
      rw [set_same] at hj
      exact hpending c h key claim cert hj
    · rw [set_of_ne _ _ hji] at hj
      obtain ⟨hissued, hfirst⟩ := hs.pending j c h key claim cert hj
      exact ⟨hsub hissued, fun id cert' hc => hfirst id cert' (hold hc)⟩
  · obtain ⟨hi, row, hrow, hserial⟩ := hs.returned j id cert (hold hj)
    refine ⟨hsub hi, row, ?_, hserial⟩
    rwa [Store.certificateFor, hcerts]
  · rw [hcerts] at hrow
    obtain ⟨j, cert, hr, hserial⟩ := hs.rows row hrow
    exact ⟨j, cert, hsub hr, hserial⟩

theorem Issuance.record {claim : Claim} (hs : Issuance s) (hinv : Inv s)
    (hst : s.redeems i = .issued c h key claim cert)
    (hrec : s.store.recordCertificate (S.certificateRow c.now c.req.payload key claim cert) =
      some store) :
    Issuance { s with
      store, redeems := set s.redeems i (.done result)
      log := .returned i c.req.payload.grantID cert :: s.log } := by
  obtain ⟨hissued, hfirst⟩ := hs.pending i c h key claim cert hst
  have hnone : s.store.certificateFor c.req.payload.grantID = none := by
    by_contra hsome
    -- Whoever recorded one for this grant was issued it, and that was this call.
    obtain ⟨row, hrow⟩ := Option.ne_none_iff_exists'.mp hsome
    have hgrant : row.grantID = c.req.payload.grantID := by simpa using List.find?_some hrow
    obtain ⟨j, cert', hret, -⟩ := hs.rows row (List.mem_of_find?_eq_some hrow)
    rw [hgrant] at hret
    obtain ⟨rfl, rfl⟩ := hinv.issued_unique hissued (hs.returned j _ cert' hret).1
    exact hfirst _ _ hret
  have hrows := recordCertificate_new hrec hnone
  have hfor (id : GoString) := certificateFor_append hrows id
  refine ⟨fun j c' h' key' claim' cert' hj => ?_, fun j id cert' hj => ?_, fun row hrow => ?_⟩
  · by_cases hji : j = i
    · simp [hji] at hj
    · simp only [set_of_ne _ _ hji] at hj
      obtain ⟨hissued', hfirst'⟩ := hs.pending j c' h' key' claim' cert' hj
      refine ⟨List.mem_cons_of_mem _ hissued', fun id cert'' hc => ?_⟩
      rcases List.mem_cons.mp hc with heq | hold
      · cases heq
        exact hji rfl
      · exact hfirst' id cert'' hold
  · rcases List.mem_cons.mp hj with heq | hold
    · cases heq
      refine ⟨List.mem_cons_of_mem _ hissued, S.certificateRow c.now c.req.payload key claim cert,
        ?_, rfl⟩
      rw [hfor, hnone]
      simp [certificateRow]
    · obtain ⟨hi, row, hrow, hserial⟩ := hs.returned j id cert' hold
      exact ⟨List.mem_cons_of_mem _ hi, row, by rw [hfor, hrow, Option.some_or], hserial⟩
  · rw [hrows] at hrow
    rcases List.mem_append.mp hrow with hold | hnew
    · obtain ⟨j, cert', hr, hserial⟩ := hs.rows row hold
      exact ⟨j, cert', List.mem_cons_of_mem _ hr, hserial⟩
    · cases List.mem_singleton.mp hnew
      exact ⟨i, cert, List.mem_cons_self, rfl⟩

theorem Issuance.step (hs : Issuance s) (hinv : Inv s) (h : step S s a = some t) :
    Issuance t := by
  rcases step_aside h with haside | ⟨i, draw, st, store, es, hnext, rfl⟩
  · exact hs.aside haside
  · have hstep := redeemNext_step S hnext
    generalize hst : s.redeems i = st₀ at hstep
    cases hstep with
    | early hbefore hafter hgrants hcerts hhost =>
      refine hs.part hcerts rfl rfl (fun c h' key claim cert heq => ?_) (by simp)
      rcases hafter with hb | ⟨e, rfl⟩
      · subst heq
        cases hb
      · cases heq
    | claim => exact hs.part rfl rfl rfl (fun _ _ _ _ _ heq => by cases heq) (by simp)
    | @issue c h' key claim cert hissue =>
      refine hs.part rfl rfl rfl (fun c' h'' key' claim' cert' heq => ?_) (by simp)
      cases heq
      refine ⟨List.mem_cons_self, fun id cert'' hret => ?_⟩
      have hold : .returned i id cert'' ∈ s.log := by simpa using hret
      exact (hinv.claimed i c h' key _ hst).2 id cert'' (hs.returned i id cert'' hold).1
    | stop hnot => exact hs.part rfl rfl rfl (fun _ _ _ _ _ heq => by cases heq) (by simp)
    | record hrec => exact hs.record hinv hst hrec

theorem Issuance.initial (h : Initial s) : Issuance s := by
  obtain ⟨hstore, hredeems, -, hlog⟩ := h
  refine ⟨fun i c h' key claim cert hst => ?_, by simp [hlog], ?_⟩
  · rw [hredeems i] at hst
    cases hst
  · simp [hstore, Store.empty, Table.empty]

theorem Issuance.reachable (hs : (machine S).Reachable FreshIDs s) : Issuance s := by
  obtain ⟨s₀, hinit, hrun⟩ := hs
  induction hrun with
  | refl => exact .initial hinit
  | step hrun hok hstep ih => exact ih.step (.reachable ⟨s₀, hinit, hrun⟩) hstep

end Grantd.Signer
