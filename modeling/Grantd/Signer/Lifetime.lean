import Grantd.Signer.Certificates
import Grantd.Warden.Model

/-!
# What the lifetime socket says of a live grant

The warden admits a certificate by what the signer answers about its grant.
The two agree: a certificate that was returned for a grant that is neither
revoked nor expired is admitted, and what is admitted was returned. The answer
is put together from two reads, so it is stated for two states of a run. Rows
have to be there for as long as their grants live, which is up to the purge.
-/

namespace Grantd.Signer

open Base Protocol
open Warden (Answer SourceError parseKeyID checkGrant checkGrant_eq_ok)

/-- The lifetime handler, whose two statements see `s` and `t`. -/
def lifetimeGrant (s t : Store) (id : GoString) : Except ErrCode LifetimeGrant :=
  (lifetimeView s id).map (withSerial t)

def grantInfo (id : GoString) : Except ErrCode LifetimeGrant → Answer
  | .error .grantNotFound => .error .unknown
  | .error _ => .error .other
  | .ok g => if g.id == id then .ok g else .error .other

/-- The purge's `now - retain` is a time before `now`. -/
def PurgesInRange : Action → Prop
  | .purgeGrants now _ => Int64.minValue + purgeRetention ≤ now
  | _ => True

/-- Fresh ids, one clock, and no purge in the first day of `int64` time. -/
def Timely (s : State) (a : Action) : Prop := FreshIDs s a ∧ Clocked s a ∧ PurgesInRange a

instance (a : Action) : Decidable (PurgesInRange a) :=
  match a with
  | .purgeGrants .. => inferInstanceAs (Decidable (_ ≤ _))
  | .tick _ | .enroll .. | .createStart .. | .create .. | .redeemStart .. | .redeem ..
      | .redeemFail _
  | .revoke .. | .markPublished .. | .purgeNonces .. => inferInstanceAs (Decidable True)

instance (s : State) (a : Action) : Decidable (Timely s a) := inferInstanceAs (Decidable (_ ∧ _))

variable {S : Signer}

-- ---------------------------------------------------------------------------
-- Rows stay
-- ---------------------------------------------------------------------------

theorem step_keeps {id : GoString} (h : step S s a = some t)
    (hr : s.store.grants.get? id = some r) :
    (∃ r', t.store.grants.get? id = some r') ∨
      ∃ now retain, a = .purgeGrants now retain ∧ r.expiresAt < now - retain := by
  have updated {f : GrantRow → GrantRow} (hf : ∀ r, (f r).id = r.id) :
      ∃ r', (s.store.grants.update f hf).get? id = some r' :=
    ⟨f r, by rw [Table.get?_update, hr]; rfl⟩
  have hstep := grantsStep h
  generalize t.store.grants = grants at hstep
  cases hstep with
  | same => exact .inl ⟨r, hr⟩
  | created hi hrow =>
    have hget := Table.get?_insert hrow id
    split at hget
    · exact .inl ⟨_, hget⟩
    · exact .inl ⟨r, hget.trans hr⟩
  | redeemed | revoked | published => exact .inl (updated _)
  | @purged now retain =>
    by_cases hp : r.expiresAt < now - retain
    · exact .inr ⟨now, retain, rfl, hp⟩
    · refine .inl ⟨r, ?_⟩
      rw [Table.get?_delete, hr]
      simp [Option.filter, hp]

def RowsStay (s : State) : Prop := ∀ id e, .created id e ∈ s.log →
  (∃ r, s.store.grants.get? id = some r) ∨ e < s.clock

theorem sub_purgeRetention_le {now : Int64} (h : Int64.minValue + purgeRetention ≤ now) :
    now - purgeRetention ≤ now := by
  have hp : purgeRetention.toInt = 86400 := by decide
  have hm : (Int64.minValue + purgeRetention).toInt = -9223372036854689408 := by decide
  have hle := Int64.le_iff_toInt_le.mp h
  have hlt := now.toInt_lt
  rw [hm] at hle
  rw [Int64.le_iff_toInt_le, Int64.toInt_sub, hp, Int.bmod_def]
  omega

theorem step_created {id : GoString} (h : step S s a = some t) (he : .created id e ∈ t.log) :
    .created id e ∈ s.log ∨ ∃ r, t.store.grants.get? id = some r := by
  cases acts h with
  | tick | enroll | refuse | start | create | redeemStart | redeemFail | markPublished | purgeGrants
  | purgeNonces => exact .inl he
  | insert hi hrow =>
    rcases List.mem_cons.mp he with heq | hold
    · cases heq
      exact .inr ⟨_, (Table.get?_insert hrow _).trans (if_pos rfl)⟩
    · exact .inl hold
  | @redeem i draw st store es hnext =>
    have hstep := redeemNext_step S hnext
    generalize s.redeems i = call at hstep
    cases hstep <;> exact .inl (by simpa using he)
  | revoke =>
    rcases List.mem_append.mp he with hnew | hold
    · split at hnew <;> simp at hnew
    · exact .inl hold

theorem step_clock (h : step S s a = some t) (hok : Clocked s a) : s.clock ≤ t.clock := by
  cases acts h with
  | tick => exact hok
  | _ => exact Int64.le_refl _

theorem RowsStay.step (hs : RowsStay s) (hinv : Inv s) (hok : Timely s a)
    (h : step S s a = some t) : RowsStay t := by
  obtain ⟨-, hclock, hrange⟩ := hok
  have hle := step_clock h hclock
  intro id e he
  rcases step_created h he with hold | hnew
  · rcases hs id e hold with ⟨r, hr⟩ | hpast
    · rcases step_keeps h hr with hkept | ⟨now, retain, rfl, hlt⟩
      · exact .inl hkept
      · obtain ⟨hnow, rfl⟩ := hclock
        cases hinv.created_unique (hinv.rows id r hr) hold
        refine .inr (Int64.lt_of_lt_of_le hlt ?_)
        exact Int64.le_trans (sub_purgeRetention_le hrange) (Int64.le_trans hnow hle)
    · exact .inr (Int64.lt_of_lt_of_le hpast hle)
  · exact .inl hnew

theorem RowsStay.reachable (hs : (machine S).Reachable Timely s) : RowsStay s := by
  obtain ⟨s₀, hinit, hrun⟩ := hs
  induction hrun with
  | refl =>
    intro id e he
    simp [hinit.2.2.2] at he
  | step hrun hok hstep ih =>
    have hreach : (machine S).Reachable Timely _ := ⟨s₀, hinit, hrun⟩
    exact ih.step (.reachable (hreach.mono fun _ _ h => h.1)) hok hstep

-- ---------------------------------------------------------------------------
-- Key ids
-- ---------------------------------------------------------------------------

theorem not_mem_colon (h : matchesID tag n s = true) (htag : (0x3A : UInt8) ∉ tag) :
    (0x3A : UInt8) ∉ s := fun hmem => by
  rcases mem_of_matchesID h hmem with hc | hc
  · exact htag hc
  · exact absurd hc (by decide)

theorem parseKeyID_keyID {grantID agentID : GoString} (hg : validGrantID grantID = true)
    (ha : validAgentID agentID = true) :
    parseKeyID (keyID grantID agentID) = some (grantID, agentID) := by
  have hsplit : (keyID grantID agentID).splitOn 0x3A = [lit "grantd", grantID, agentID] := by
    have hjoin : keyID grantID agentID =
        [0x3A].intercalate [lit "grantd", grantID, agentID] := by
      have htag : lit "grantd:" = lit "grantd" ++ [0x3A] := by decide
      have hcolon : lit ":" = [0x3A] := by decide
      simp [keyID, List.intercalate, htag, hcolon]
    rw [hjoin]
    refine List.splitOn_intercalate _ ?_ (by simp)
    simp only [List.mem_cons, List.not_mem_nil, or_false, forall_eq_or_imp, forall_eq]
    exact ⟨by decide, not_mem_colon hg (by decide), not_mem_colon ha (by decide)⟩
  simp [parseKeyID, hsplit, hg, ha]

-- ---------------------------------------------------------------------------
-- Agreement
-- ---------------------------------------------------------------------------

theorem lifetimeView_eq_ok {s : Store} {id : GoString} : lifetimeView s id = .ok out ↔
    validGrantID id = true ∧ ∃ v, s.grants.get? id = some v ∧
      out = ⟨v.id, v.sshUser, v.expiresAt, v.redeemedAt, v.revokedAt, []⟩ := by
  simp only [lifetimeView, bind_eq_ok, ensure_eq_ok]
  cases s.grants.get? id with
  | none => simp [throw_eq_ok]
  | some v =>
    constructor
    · rintro ⟨-, hvalid, hout⟩
      exact ⟨hvalid, v, rfl, ((pure_eq_ok ..).mp hout).symm⟩
    · rintro ⟨hvalid, _, hv, rfl⟩
      cases hv
      exact ⟨(), hvalid, rfl⟩

theorem grantInfo_eq_ok {s t : Store} {id : GoString} :
    grantInfo id (lifetimeGrant s t id) = .ok g ↔
      validGrantID id = true ∧ ∃ v, s.grants.get? id = some v ∧
        g = withSerial t ⟨v.id, v.sshUser, v.expiresAt, v.redeemedAt, v.revokedAt, []⟩ := by
  have hid (out : LifetimeGrant) : (withSerial t out).id = out.id := by
    unfold withSerial
    split <;> rfl
  cases hview : lifetimeView s id with
  | error e =>
    have hleft : grantInfo id (lifetimeGrant s t id) ≠ .ok g := by
      simp only [lifetimeGrant, hview, Except.map]
      cases e <;> exact nofun
    refine iff_of_false hleft fun ⟨hvalid, v, hv, _⟩ => ?_
    cases hview.symm.trans (lifetimeView_eq_ok.mpr ⟨hvalid, v, hv, rfl⟩)
  | ok out =>
    obtain ⟨hvalid, v, hv, rfl⟩ := lifetimeView_eq_ok.mp hview
    have hkey : v.id = id := Table.key_get? hv
    simp only [lifetimeGrant, hview, Except.map, grantInfo, hid, hkey, beq_self_eq_true, if_true]
    constructor
    · intro h
      cases h
      exact ⟨hvalid, v, hv, by rw [hkey]⟩
    · rintro ⟨-, v', hv', rfl⟩
      cases hv.symm.trans hv'
      rw [hkey]

theorem Certified.ids (h : Certified S c hst key r cert) :
    validGrantID c.req.payload.grantID = true ∧
      validAgentID c.req.payload.agentID = true ∧
      cert.keyID = keyID c.req.payload.grantID c.req.payload.agentID := by
  obtain ⟨-, -, -, hgrant, -, -, -, hagent, -, -⟩ := (checkRequest_eq_ok S).mp h.passed.checks
  obtain ⟨draw, hissue⟩ := h.issued
  exact ⟨hgrant, matchesID_deriveID S.crypto hagent, (issue_of hissue).keyID⟩

theorem certificate_ids (hs : (machine S).Reachable FreshIDs s)
    (h : .issued i grantID cert ∈ s.log) : validGrantID grantID = true ∧
    (∃ agentID, validAgentID agentID = true ∧ cert.keyID = keyID grantID agentID) ∧
    ∃ r, Held S FreshIDs s r ∧ r.id = grantID ∧ cert.validPrincipals = [r.sshUser] ∧
      cert.validBefore = r.expiresAt.toUInt64 := by
  obtain ⟨c, h', key, r, hheld, hcert, rfl, -⟩ :=
    (Traced.reachable (fun _ _ _ => made_true) hs).issued i grantID cert h
  obtain ⟨hgrant, hagent, hkeyID⟩ := hcert.ids
  exact ⟨hgrant, ⟨_, hagent, hkeyID⟩, r, hheld, hcert.claims.id, hcert.row⟩

theorem Held.grows {id : GoString} (h : Held S FreshIDs s r) (hid : r.id = id)
    (hv : s.store.grants.get? id = some v) : r.Grows v := by
  obtain ⟨s₁, hreach, hrun, hrow⟩ := h
  have hcreated : s₁.created r.id := ⟨_, (Inv.reachable hreach).rows _ r hrow⟩
  obtain ⟨-, hrows⟩ := Later.run hreach hrun _ hcreated
  obtain ⟨r₀, hr₀, hgrows⟩ := hrows v (hid ▸ hv)
  cases hrow.symm.trans hr₀
  exact hgrows

structure Carries (v : GrantRow) (s : State) : Prop where
  claims : ∀ i c h key claim, s.redeems i = .claimed c h key claim →
    c.req.payload.grantID = v.id → claim = ⟨v.sshUser, v.expiresAt⟩
  certificates : ∀ i cert, .issued i v.id cert ∈ s.log →
    cert.validPrincipals = [v.sshUser] ∧ cert.validBefore = v.expiresAt.toUInt64

theorem Carries.of_row (hs : (machine S).Reachable FreshIDs s)
    (hv : s.store.grants.get? v.id = some v) : Carries v s := by
  refine ⟨fun i c h key claim hst hid => ?_, fun i cert hi => ?_⟩
  · obtain ⟨r, hheld, hclaims, rfl⟩ :=
      (Traced.reachable (fun _ _ _ => made_true) hs).claimed i c h key claim hst
    have hgrows := hheld.grows (hclaims.id.trans hid) hv
    rw [hgrows.sshUser, hgrows.expiresAt]
  · obtain ⟨-, -, r, hheld, hid, hprincipals, hbefore⟩ := certificate_ids hs hi
    have hgrows := hheld.grows hid hv
    rw [hprincipals, hbefore, hgrows.sshUser, hgrows.expiresAt]
    exact ⟨rfl, rfl⟩

theorem Carries.run (hs : (machine S).Reachable FreshIDs s)
    (hv : s.store.grants.get? v.id = some v) (hrun : (machine S).Run FreshIDs s t) :
    Carries v t := by
  induction hrun with
  | refl => exact .of_row hs hv
  | @step u t a hrun hok hstep ih =>
    rcases step_aside hstep with haside | ⟨i, draw, st, store, es, hnext, rfl⟩
    · obtain ⟨es, hlog, hes⟩ := haside.log
      refine ⟨fun j c h key claim hst hid => ?_, fun j cert hj => ?_⟩
      · rcases haside.calls j with heq | ⟨c', heq⟩ | ⟨result, heq⟩
        · exact ih.claims j c h key claim (heq ▸ hst) hid
        · cases heq.symm.trans hst
        · cases heq.symm.trans hst
      · rw [hlog] at hj
        rcases List.mem_append.mp hj with hnew | hold
        · cases hes _ hnew
        · exact ih.certificates j cert hold
    · have hpart := redeemNext_step S hnext
      generalize hi : u.redeems i = st₀ at hpart
      refine ⟨fun j c h key claim hst hid => ?_, fun j cert hj => ?_⟩
      · by_cases hj : j = i
        · subst hj
          simp only [set_same] at hst
          subst hst
          cases hpart with
          | early _ hafter =>
            rcases hafter with hb | ⟨e, he⟩
            · cases hb
            · cases he
          | claim hget =>
            -- The row the claim found has grown out of `v`.
            have hcreated : s.created v.id := ⟨_, (Inv.reachable hs).rows _ v hv⟩
            obtain ⟨-, hrows⟩ := Later.run hs hrun _ hcreated
            obtain ⟨v', hv', hgrows⟩ := hrows _ (hid ▸ hget)
            cases hv.symm.trans hv'
            rw [hgrows.sshUser, hgrows.expiresAt]
        · exact ih.claims j c h key claim (by simpa [hj] using hst) hid
      · rcases List.mem_append.mp hj with hnew | hold
        · cases hpart with
          | early | stop => cases hnew
          | claim | record => simp at hnew
          | issue hissue =>
            simp only [List.mem_singleton, Event.issued.injEq] at hnew
            obtain ⟨-, hid, rfl⟩ := hnew
            cases ih.claims i _ _ _ _ hi hid.symm
            have hof := issue_of hissue
            exact ⟨hof.validPrincipals, by simp [hof.validBefore, certRequest]⟩
        · exact ih.certificates j cert hold

theorem run_log (hs : (machine S).Reachable FreshIDs s) (hrun : (machine S).Run FreshIDs s t) :
    s.log ⊆ t.log := by
  refine hrun.relates (R := fun s t => s.log ⊆ t.log) (fun _ => List.Subset.refl _)
    (fun _ _ _ => List.Subset.trans) (fun s a t hs hok hstep => ?_) hs
  obtain ⟨es, hes⟩ := step_extends (.reachable hs) hok hstep
  exact hes.log ▸ List.subset_append_right _ _

theorem certificateSerial_returned {id : GoString} (hs : (machine S).Reachable FreshIDs t)
    (h : .returned i id cert ∈ t.log) : t.store.certificateSerial id = some cert.serial := by
  obtain ⟨-, row, hrow, hserial⟩ := (Issuance.reachable hs).returned i id cert h
  simp [Store.certificateSerial, hrow, hserial]

theorem toInt_le_toUInt64 (v : Int64) : v.toInt ≤ v.toUInt64.toNat := by
  by_cases h : 0 ≤ v
  · exact (toNat_toUInt64 h).ge
  · have hneg : v.toInt < 0 := Int64.lt_iff_toInt_lt.mp (Int64.not_le.mp h)
    omega

/-- The warden's check of a grant, on an answer read in `s` and `t`, and the
certificates the signer has returned agree on what is live. -/
theorem live_certificates_agree (hs : (machine S).Reachable Timely s)
    (hrun : (machine S).Run Timely s t) :
    (∀ i grantID cert u e now, .returned i grantID cert ∈ s.log → cert.validPrincipals = [u] →
      (∀ r, s.store.grants.get? grantID = some r → r.revokedAt = none) →
      .created grantID e ∈ s.log → now < e → s.clock ≤ now →
      ∃ agentID info, parseKeyID cert.keyID = some (grantID, agentID) ∧
        checkGrant (grantInfo grantID (lifetimeGrant s.store t.store grantID)) now grantID u
          (formatUint cert.serial) = .ok info) ∧
    (∀ grantID u serial now info, serial ≠ [] →
      checkGrant (grantInfo grantID (lifetimeGrant s.store t.store grantID)) now grantID u serial =
        .ok info →
      (∃ r, s.store.grants.get? grantID = some r ∧ r.revokedAt = none) ∧
      ∃ i cert agentID, .returned i grantID cert ∈ t.log ∧ cert.keyID = keyID grantID agentID ∧
        formatUint cert.serial = serial ∧ cert.validPrincipals = [u] ∧
        now.toInt < cert.validBefore.toNat) := by
  have hfresh : ∀ s a, Timely s a → FreshIDs s a := fun _ _ h => h.1
  have hsF := hs.mono hfresh
  have hrunF := hrun.mono hfresh
  have htF := hsF.run hrunF
  refine ⟨?_, ?_⟩
  · intro i grantID cert u e now hret hprincipal hunrevoked hcreated hnow hclock
    have hissued := ((Issuance.reachable hsF).returned i grantID cert hret).1
    obtain ⟨hvalid, ⟨agentID, hagent, hkeyID⟩, r, hheld, hid, hprincipals, -⟩ :=
      certificate_ids hsF hissued
    obtain ⟨v, hv⟩ : ∃ v, s.store.grants.get? grantID = some v := by
      rcases RowsStay.reachable hs grantID e hcreated with hrow | hpast
      · exact hrow
      · exact absurd (Int64.lt_of_lt_of_le hpast hclock) (Int64.not_lt.mpr (Int64.le_of_lt hnow))
    have hinv := Inv.reachable hsF
    have hexp : e = v.expiresAt := hinv.created_unique hcreated (hinv.rows grantID v hv)
    have huser : v.sshUser = u := by
      rw [hprincipals] at hprincipal
      rw [(hheld.grows hid hv).sshUser]
      simpa using hprincipal
    have hred : v.redeemedAt.isSome = true := by
      obtain ⟨now', hclaimed⟩ := hinv.issued i grantID cert hissued
      exact Option.isSome_iff_ne_none.mpr (hinv.redeemed i grantID now' v hclaimed hv)
    have hserial := certificateSerial_returned htF (run_log hsF hrunF hret)
    refine ⟨agentID, _, hkeyID ▸ parseKeyID_keyID hvalid hagent,
      checkGrant_eq_ok.mpr ⟨grantInfo_eq_ok.mpr ⟨hvalid, v, hv, rfl⟩, ?_⟩⟩
    simp only [withSerial, Table.key_get? hv, hserial]
    exact ⟨huser, hunrevoked v hv, hexp ▸ hnow, hred, .inr trivial⟩
  · intro grantID u serial now info hserial hcheck
    obtain ⟨hinfo, huser, hunrevoked, hnow, -, hmatch⟩ := checkGrant_eq_ok.mp hcheck
    obtain ⟨-, v, hv, rfl⟩ := grantInfo_eq_ok.mp hinfo
    have hvid : v.id = grantID := Table.key_get? hv
    -- A serial can only come from a certificate in the table.
    replace hmatch := hmatch.resolve_left hserial
    simp only [withSerial, hvid] at huser hunrevoked hnow hmatch
    split at hmatch
    · exact absurd hmatch.symm hserial
    · rename_i n hn
      simp only [hn] at huser hunrevoked hnow
      obtain ⟨row, hrow, rfl⟩ := Option.map_eq_some_iff.mp hn
      have hgrant : row.grantID = grantID := by simpa using List.find?_some hrow
      have hI := Issuance.reachable htF
      obtain ⟨i, cert, hret, heq⟩ := hI.rows row (List.mem_of_find?_eq_some hrow)
      rw [hgrant] at hret
      have hissued := (hI.returned i grantID cert hret).1
      obtain ⟨-, ⟨agentID, -, hkeyID⟩, -⟩ := certificate_ids htF hissued
      have hcarries := (Carries.run hsF (hvid ▸ hv) hrunF).certificates i cert (hvid ▸ hissued)
      refine ⟨⟨v, hv, hunrevoked⟩, i, cert, agentID, hret, hkeyID, ?_, ?_, ?_⟩
      · simpa [heq] using hmatch
      · rw [hcarries.1, huser]
      · rw [hcarries.2]
        exact (Int64.lt_iff_toInt_lt.mp hnow).trans_le (toInt_le_toUInt64 v.expiresAt)

def Event.returns (id : GoString) : Event → Option Certificate
  | .returned _ id' cert => if id' = id then some cert else none
  | _ => none

theorem mem_of_returns {log : List Event} {id : GoString}
    (h : log.findSome? (Event.returns id) = some cert) : ∃ i, .returned i id cert ∈ log := by
  obtain ⟨e, he, hcert⟩ := List.exists_of_findSome?_eq_some h
  cases e with
  | returned i id' cert' =>
    simp only [Event.returns] at hcert
    split at hcert <;> cases hcert
    rename_i hid
    exact ⟨i, hid ▸ he⟩
  | _ => cases hcert

/-- A certificate of half an hour, with a serial above the `int64` range. -/
theorem live_certificates_agree_sample : ∃ (s : State) (cert : Certificate) (agentID : GoString)
      (info : LifetimeGrant),
    (machine Sample.sample).Reachable Timely s ∧ cert.serial = Sample.draw.serial ∧
    parseKeyID cert.keyID = some (Sample.grantID, agentID) ∧
    checkGrant (grantInfo Sample.grantID (lifetimeGrant s.store s.store Sample.grantID)) 1700001799
      Sample.grantID Sample.user (formatUint cert.serial) = .ok info := by
  have hexec : ((machine Sample.sample).exec Timely Sample.initial
      (Sample.setUp ++ Sample.redemption)).any (fun s =>
        (s.log.findSome? (Event.returns Sample.grantID)).any (fun cert =>
          cert.serial == Sample.draw.serial && cert.validPrincipals == [Sample.user]) &&
        (s.store.grants.get? Sample.grantID).all (·.revokedAt.isNone) &&
        decide (.created Sample.grantID 1700001800 ∈ s.log) && s.clock == 1700000000) = true := by
    decide +kernel
  obtain ⟨s, hs, hfacts⟩ := Option.any_eq_true .. |>.mp hexec
  simp only [Bool.and_eq_true, decide_eq_true_eq, beq_iff_eq] at hfacts
  obtain ⟨⟨⟨hcert, hrow⟩, hcreated⟩, hclock⟩ := hfacts
  obtain ⟨cert, hret, hcert⟩ := Option.any_eq_true .. |>.mp hcert
  simp only [Bool.and_eq_true, beq_iff_eq] at hcert
  obtain ⟨i, hi⟩ := mem_of_returns hret
  have hreach : (machine Sample.sample).Reachable Timely s :=
    Sample.initial_reachable.run (.of_exec hs)
  obtain ⟨agentID, info, hkeyID, hcheck⟩ := (live_certificates_agree hreach (.refl s)).1 i
    Sample.grantID cert Sample.user 1700001800 1700001799 hi hcert.2
    (fun r hr => by simpa [hr] using hrow) hcreated (by decide) (by rw [hclock]; decide)
  exact ⟨s, cert, agentID, info, hreach, hcert.1, hkeyID, hcheck⟩

end Grantd.Signer
