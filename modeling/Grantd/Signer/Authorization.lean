import Grantd.Signer.Certificates

/-!
# Who a certificate goes back to

The service and the daemon choose every request, in any order and as often as
they like, and take apart and put together what they have seen. They cannot
compute an HMAC under a secret they do not hold. So the request behind a
certificate carries a MAC that a holder of the grant's secret made, and as its
bytes are those of one payload only, that holder meant this host, this grant,
this agent and this key. Nothing is assumed of the ids that are drawn, and of
the clock neither.
-/

namespace Grantd.Signer

open Base Protocol

variable {S : Signer} {P : RedemptionRequest → Prop}

-- ---------------------------------------------------------------------------
-- What a holder of the secret authorized
-- ---------------------------------------------------------------------------

variable (S) in
/-- The request was made without breaking HMAC: `maced secret p` says that a
holder of `secret` has computed the MAC of `p`, and a proof that verifies is
one of these, over the very bytes. -/
def Unforged (maced : Bytes → RedemptionPayload → Prop) (req : RedemptionRequest) : Prop :=
  ∀ secret, S.verifyProof req.payload secret req.proof = .ok true →
    ∃ p, maced secret p ∧ p.canonicalMAC = req.payload.canonicalMAC

theorem RedeemCall.Passed.size {c : RedeemCall} {hst : Host} (h : c.Passed S hst key) :
    (Message.redemptionMAC c.req.payload).size ≤ 1200 := by
  obtain ⟨-, -, hhost, hgrant, -, hnonce, hpub, hagent, -, hkey⟩ :=
    (checkRequest_eq_ok S).mp h.checks
  have hlenHost := length_of_matchesID (matchesID_deriveID S.crypto h.host)
  have hlenGrant := length_of_matchesID hgrant
  have hlenAgent := length_of_matchesID (matchesID_deriveID S.crypto hagent)
  have hlenKey := length_of_parseSSHPublicKey hkey
  simp only [Message.size, hhost, hlenHost, hlenGrant, hlenAgent, hnonce, hpub]
  simp only [maxSSHPubKeyBytes] at hlenKey
  have hh : (lit "h_").length = 2 := rfl
  have hg : (lit "g_").length = 2 := rfl
  have ha : (lit "a_").length = 2 := rfl
  omega

/-- The payload whose MAC was accepted is the one the holder of the secret had
in hand. -/
theorem Certified.maced {made : Bytes → RedemptionPayload → Prop}
    (h : Certified S c hst key r cert) (hreq : Unforged S made c.req) :
    made r.secret c.req.payload := by
  obtain ⟨p, hp, hmac⟩ := hreq r.secret h.claims.proof
  obtain ⟨e, he, -⟩ := (verifyProof_eq_true S).mp h.claims.proof
  have hsize := h.passed.size
  have heq : Message.redemptionMAC c.req.payload = .redemptionMAC p :=
    Message.eq_of_canonical (e := e) he (hmac.trans he) (by omega)
  cases heq
  exact hp

theorem Certified.holder {made : Bytes → RedemptionPayload → Prop}
    (h : Certified S c hst key r cert) (hreq : Unforged S made c.req) :
    made r.secret c.req.payload ∧ hostID S.crypto S.identity = .ok c.req.payload.hostID ∧
      cert.keyID = keyID c.req.payload.grantID c.req.payload.agentID ∧
      c.req.payload.sshPublicKey = publicSSHLine cert.key := by
  obtain ⟨draw, hissue⟩ := h.issued
  have hof := issue_of hissue
  obtain ⟨-, -, hhost, -, -, -, -, -, -, hparse⟩ := (checkRequest_eq_ok S).mp h.passed.checks
  refine ⟨h.maced hreq, ?_, hof.keyID, ?_⟩
  · rw [hhost]
    exact h.passed.host
  · rw [hof.key]
    exact (parseSSHPublicKey_line hparse).symm

theorem keyID_inj (h : keyID g a = keyID g a') : a = a' := List.append_cancel_left h

/-- A certificate for grant `g` was authorized by a holder of the secret in the
row of `g`, who named this host, this grant, the agent of the key id and the
very line of the key; its principal and its end are those of the row. Two
requests that go through on one row get the same of both. -/
theorem certificate_authorized (maced : Bytes → RedemptionPayload → Prop) :
    (∀ s i g cert, (machine S).Reachable (Made (Unforged S maced)) s → .issued i g cert ∈ s.log →
      ∃ r, Held S (Made (Unforged S maced)) s r ∧ r.id = g ∧
        (∃ p, maced r.secret p ∧ hostID S.crypto S.identity = .ok p.hostID ∧ p.grantID = g ∧
          (∀ a, cert.keyID = keyID g a ↔ p.agentID = a) ∧
          p.sshPublicKey = publicSSHLine cert.key) ∧
        cert.validPrincipals = [r.sshUser] ∧ cert.validBefore = r.expiresAt.toUInt64) ∧
    (∀ r c h key cert c' h' key' cert', Certified S c h key r cert →
      Certified S c' h' key' r cert' →
      cert.validPrincipals = cert'.validPrincipals ∧ cert.validBefore = cert'.validBefore) := by
  refine ⟨fun s i g cert hs hissued => ?_, fun r c h key cert c' h' key' cert' hcert hcert' => ?_⟩
  · have htraced := Traced.reachable (fun _ _ => id) hs
    obtain ⟨c, h, key, r, hheld, hcert, rfl, hreq⟩ := htraced.issued i g cert hissued
    obtain ⟨hmaced, hhost, hkeyID, hline⟩ := hcert.holder hreq
    refine ⟨r, hheld, hcert.claims.id, ⟨c.req.payload, hmaced, hhost, rfl, fun a => ?_, hline⟩,
      hcert.row⟩
    rw [hkeyID]
    exact ⟨keyID_inj, congrArg _⟩
  · obtain ⟨hp, hb⟩ := hcert.row
    obtain ⟨hp', hb'⟩ := hcert'.row
    exact ⟨hp.trans hp'.symm, hb.trans hb'.symm⟩

namespace Sample

/-- HMAC under the secret, on the one payload its holder has authorized. -/
def authorizing : Signer := { sample with
  crypto := { sample.crypto with
    hmacSHA256 := fun k msg =>
      if k = secret ∧ request.payload.canonicalMAC.toOption = some msg then proof
      else List.replicate 32 0 } }

def maced (k : Bytes) (p : RedemptionPayload) : Prop := k = secret ∧ p = request.payload

/-- The same proof around another SSH key. -/
def redirected : RedemptionRequest := { request with
  payload := { request.payload with
    sshPublicKey := publicSSHLine hostKey
    nonce := List.replicate 16 7 } }

theorem unforged (h : req = request ∨ req = redirected) : Unforged authorizing maced req := by
  intro k hk
  obtain ⟨msg, hmsg, hproof⟩ := (verifyProof_eq_true _).mp hk
  have hzero : proof ≠ List.replicate 32 0 := by decide
  rcases h with rfl | rfl
  · by_cases hsecret : k = secret
    · exact ⟨request.payload, ⟨hsecret, rfl⟩, rfl⟩
    · exact absurd (hproof.trans (if_neg fun h => hsecret h.1)) hzero
  · -- The redirected payload has other bytes, so the proof is not its MAC.
    have hother : request.payload.canonicalMAC.toOption ≠
        redirected.payload.canonicalMAC.toOption := by decide +kernel
    rw [hmsg] at hother
    exact absurd (hproof.trans (if_neg fun h => hother h.2)) hzero

def attack : List Action :=
  setUp ++ .redeemStart 1 now redirected :: List.replicate 4 (.redeem 1 draw) ++ redemption

end Sample

/-- A proof that is carried over to another key gets nothing; the certificate
is for the key whose line was MAC'd. -/
theorem certificate_authorized_sample : ∃ s cert,
    (machine Sample.authorizing).Reachable (Made (Unforged Sample.authorizing Sample.maced)) s ∧
    .issued 0 Sample.grantID cert ∈ s.log ∧ cert.key = Sample.visitorKey ∧
    ∃ p, Sample.maced Sample.secret p ∧ p.sshPublicKey = publicSSHLine cert.key ∧
      cert.keyID = keyID Sample.grantID p.agentID := by
  have hexec : ((machine Sample.authorizing).exec
      (Made fun req => req = Sample.request ∨ req = Sample.redirected) Sample.initial
      Sample.attack).any (fun s => s.log.any fun e => e.certificate?.any fun c =>
        c.1 == 0 && c.2.1 == Sample.grantID && c.2.2.key == Sample.visitorKey) = true := by
    decide +kernel
  obtain ⟨s, hs, hlog⟩ := Option.any_eq_true .. |>.mp hexec
  obtain ⟨e, he, hissued⟩ := List.any_eq_true.mp hlog
  have hreach : (machine Sample.authorizing).Reachable
      (Made (Unforged Sample.authorizing Sample.maced)) s :=
    Sample.initial_reachable.run ((Machine.Run.of_exec hs).mono fun _ _ =>
      Made.mono fun _ => Sample.unforged)
  cases e with
  | issued i id cert =>
    simp only [Event.certificate?, Option.any_some, Bool.and_eq_true, beq_iff_eq] at hissued
    obtain ⟨⟨rfl, rfl⟩, hkey⟩ := hissued
    obtain ⟨r, -, -, ⟨p, hp, -, -, hagent, hline⟩, -⟩ :=
      (certificate_authorized Sample.maced).1 s 0 _ cert hreach he
    exact ⟨s, cert, hreach, he, hkey, p, ⟨rfl, hp.2⟩, hline, (hagent _).mpr rfl⟩
  | _ => cases hissued

end Grantd.Signer
