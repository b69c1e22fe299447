import Grantd.Install.Enrolled

/-!
# Base32 and the ids

The id of a key is the base32 text of a digest, and four programs derive it:
the signer with Go's encoding/base32, the service and redeem.mjs with a loop
over a 32-bit accumulator that is never masked, and redeem.sh with a loop in
awk over hexadecimal digits that masks its own. All of them write the five-bit
groups of RFC 4648.
-/

namespace Grantd.Install.Base32

open Base Protocol
open Service (JsString js ofBytes base32Encode)

/-- `base32` of redeem.mjs is `base32Encode` of the service, line for line. -/
def base32 (bytes : Bytes) : JsString := base32Encode bytes

def agentIDOf (T : Shell.Tools) (pubHex : Bytes) : Bytes :=
  lit "a_" ++ Shell.b32FromHex (Hex.ofBytes ((T.sha256 (Shell.unhex pubHex)).take 20))

theorem b32_inj (h : b32 a = b32 b) : a = b :=
  Rfc4648.encode_inj (by decide) (by decide) (by decide) (by decide) h

-- ---------------------------------------------------------------------------
-- Ids
-- ---------------------------------------------------------------------------

/-- What the four programs derive is this id, where they derive one, and the id
is of its kind for the signer and for the service. -/
structure DerivedAs (id : GoString) (go : Except IDError GoString)
    (service : Except Service.Thrown JsString) (node : JsString) (shell : Bytes)
    (valid : GoString → Bool) (re : JsString → Bool) : Prop where
  go : ∀ i, go = .ok i → i = id
  service : ∀ i, service = .ok i → i = ofBytes id
  node : node = ofBytes id
  shell : shell = id
  valid : valid id = true
  re : re (ofBytes id) = true

section
variable {C : Crypto} {S : Service.Subtle} {N : Node} {T : Shell.Tools}

theorem derivedAs {tag : GoString} {t nodeTag : JsString} (ht : t = ofBytes tag)
    (hnode : nodeTag = ofBytes tag) (hS : S.sha256 = C.sha256) (hN : N.sha256 = C.sha256)
    (hT : T.sha256 = C.sha256) (pub : Bytes) :
    DerivedAs (tag ++ b32 ((C.sha256 pub).take 20)) (deriveID C tag pub)
      (Service.idMaterial S pub >>= fun m => pure (t ++ base32Encode m))
      (nodeTag ++ base32 ((N.sha256 pub).take 20))
      (tag ++ Shell.b32FromHex (Hex.ofBytes ((T.sha256 (Shell.unhex (Hex.ofBytes pub))).take 20)))
      (matchesID tag 32) (Service.idRe t 32) := by
  have hvalid : matchesID tag 32 (tag ++ b32 ((C.sha256 pub).take 20)) = true :=
    matchesID_b32 tag (by simp [C.length_sha256, Rfc4648.groups])
  have htext (m : Bytes) : ofBytes tag ++ base32Encode m = ofBytes (tag ++ b32 m) := by
    rw [Service.base32Encode_eq, ofBytes, ofBytes, ofBytes, List.map_append]
  subst ht hnode
  refine ⟨fun i hi => ?_, fun i hi => ?_, ?_, ?_, hvalid, ?_⟩
  · simp only [deriveID, Protocol.idMaterial, bind_eq_ok, ensure_eq_ok, pure_eq_ok] at hi
    obtain ⟨_, ⟨-, -, rfl⟩, rfl⟩ := hi
    rfl
  · simp only [Service.idMaterial, bind_eq_ok, ensure_eq_ok, pure_eq_ok] at hi
    obtain ⟨_, ⟨-, -, rfl⟩, rfl⟩ := hi
    rw [htext, hS]
  · rw [base32, htext, hN]
  · rw [Shell.unhex_ofBytes, Shell.b32FromHex_ofBytes, hT]
  · rw [Service.idRe_ofBytes, hvalid]

/-- The four base32 encoders write the same text, from which the bytes can be
told, and what it gives ids of is of their kind. -/
theorem base32_encoders_agree (hS : S.sha256 = C.sha256) (hN : N.sha256 = C.sha256)
    (hT : T.sha256 = C.sha256) :
    (∀ b, base32Encode b = ofBytes (Rfc4648.encode 5 b32Alphabet b) ∧
      base32 b = ofBytes (Rfc4648.encode 5 b32Alphabet b) ∧
      Shell.b32FromHex (Hex.ofBytes b) = Rfc4648.encode 5 b32Alphabet b) ∧
    (∀ a b : Bytes, a.length = b.length →
      Rfc4648.encode 5 b32Alphabet a = Rfc4648.encode 5 b32Alphabet b → a = b) ∧
    (∀ b : Bytes, (b.length = 20 → (Rfc4648.encode 5 b32Alphabet b).length = 32) ∧
      (b.length = 10 → (Rfc4648.encode 5 b32Alphabet b).length = 16) ∧
      (Rfc4648.encode 5 b32Alphabet b).all isB32 = true) ∧
    (∀ pub, ∃ host agent,
      DerivedAs host (hostID C pub) (Service.hostID S pub) (N.idOf "h" pub)
        (Shell.hostIDOf T (Hex.ofBytes pub)) validHostID Service.hostIDRe ∧
      DerivedAs agent (agentID C pub) (Service.agentID S pub) (N.idOf "a" pub)
        (agentIDOf T (Hex.ofBytes pub)) validAgentID Service.agentIDRe) ∧
    ∀ raw, raw.length = 10 →
      validGrantID (newGrantID raw) = true ∧
        Service.grantIDRe (ofBytes (newGrantID raw)) = true := by
  refine ⟨fun b => ⟨?_, ?_, Shell.b32FromHex_ofBytes b⟩, fun a b _ => b32_inj,
    fun b => ⟨?_, ?_, ?_⟩, fun pub => ?_, fun raw hraw => ⟨validGrantID_newGrantID hraw, ?_⟩⟩
  · exact Service.base32Encode_eq b
  · exact Service.base32Encode_eq b
  · intro h
    rw [Rfc4648.length_encode, h]
    rfl
  · intro h
    rw [Rfc4648.length_encode, h]
    rfl
  · exact List.all_eq_true.mpr fun c hc => isB32_of_mem hc
  · have hhost : js "h" ++ js "_" = ofBytes (lit "h_") := by decide
    have hagent : js "a" ++ js "_" = ofBytes (lit "a_") := by decide
    exact ⟨_, _, derivedAs rfl hhost hS hN hT pub, derivedAs rfl hagent hS hN hT pub⟩
  · rw [Service.grantIDRe_ofBytes, validGrantID_newGrantID hraw]

end

/-- The ids of the sample host's key. -/
theorem base32_encoders_agree_sample :
    validHostID (Shell.hostIDOf Sample.tools (Hex.ofBytes Signer.Sample.identity)) = true ∧
      Service.hostIDRe (Sample.node.idOf "h" Signer.Sample.identity) = true := by
  have hids := (base32_encoders_agree (C := Signer.Sample.crypto [])
    (S := ⟨Signer.Sample.sha256, fun _ _ _ => true⟩) (N := Sample.node) (T := Sample.tools)
    rfl rfl rfl).2.2.2.1
  obtain ⟨host, _, hhost, -⟩ := hids Signer.Sample.identity
  exact ⟨by rw [hhost.shell, hhost.valid], by rw [hhost.node, hhost.re]⟩

end Grantd.Install.Base32
