import Grantd.Agent.Visitor
import Grantd.Base.Url

/-!
# The capability URL, in Go

`ParseCapabilityURL` of go/agent/identity.go. The URL is split by net/url; the
secret is read from the fragment and nowhere else.
-/

namespace Grantd.Agent

open Base Protocol

inductive CapabilityError
  | malformed
  | scheme
  | path
  | hostID
  | grantID
  | noFragment
  | secret (e : SecretError)
  deriving DecidableEq, Repr

/-- `strings.Trim(s, "/")`. -/
def trimSlashes (s : GoString) : GoString :=
  ((s.dropWhile (· == 0x2F)).reverse.dropWhile (· == 0x2F)).reverse

def readCapability (u : Url) : Except CapabilityError Capability := do
  ensure (u.scheme == lit "https" || u.scheme == lit "http") .scheme
  match (trimSlashes u.path).splitOn 0x2F with
  | [g, hostID, grantID] => do
    ensure (g == lit "g") .path
    ensure (validHostID hostID) .hostID
    ensure (validGrantID grantID) .grantID
    ensure (u.fragment != []) .noFragment
    let secret ← (decodeSecret u.fragment).mapError .secret
    pure ⟨u.scheme ++ lit "://" ++ u.host, hostID, grantID, secret⟩
  | _ => throw .path

def parseCapabilityURL (raw : GoString) : Except CapabilityError Capability :=
  match Url.parse raw with
  | none => .error .malformed
  | some u => readCapability u

-- ---------------------------------------------------------------------------
-- A URL of plain parts
-- ---------------------------------------------------------------------------

def capabilityPath (hostID grantID : GoString) : GoString :=
  lit "g" ++ 0x2F :: (hostID ++ 0x2F :: grantID)

theorem capabilityURL_eq (scheme authority hostID grantID : GoString) (secret : Bytes) :
    capabilityURL (scheme ++ lit "://" ++ authority) hostID grantID secret =
      Url.plainText scheme authority (capabilityPath hostID grantID) ++ 0x23 :: b64 secret := by
  have hsep : lit "://" = [0x3A, 0x2F, 0x2F] ∧ lit "/g/" = [0x2F, 0x67, 0x2F] ∧
      lit "/" = [0x2F] ∧ lit "#" = [0x23] ∧ lit "g" = [0x67] := by decide
  obtain ⟨h1, h2, h3, h4, h5⟩ := hsep
  simp [capabilityURL, Url.plainText, capabilityPath, h1, h2, h3, h4, h5]

theorem isUnreserved_of_matchesID (htag : tag.all Url.isUnreserved = true)
    (h : matchesID tag n s = true) : s.all Url.isUnreserved = true := by
  refine List.all_eq_true.mpr fun c hc => ?_
  rcases mem_of_matchesID h hc with hmem | hb32
  · exact List.all_eq_true.mp htag c hmem
  · have hbyte := Code.forall_byte (p := fun c => !isB32 c || Url.isUnreserved c)
      (by decide +kernel) c
    simpa [hb32] using hbyte

variable {hostID grantID : GoString}

theorem plain_ids (hh : validHostID hostID = true) (hg : validGrantID grantID = true) :
    hostID.all Url.isUnreserved = true ∧ grantID.all Url.isUnreserved = true :=
  ⟨isUnreserved_of_matchesID (by decide) hh, isUnreserved_of_matchesID (by decide) hg⟩

theorem slash_notMem {s : GoString} (h : s.all Url.isUnreserved = true) : 0x2F ∉ s :=
  Url.notMem_of_all h (by decide)

theorem plain_capabilityPath (hh : validHostID hostID = true) (hg : validGrantID grantID = true) :
    (capabilityPath hostID grantID).all Url.isPathChar = true := by
  obtain ⟨hh, hg⟩ := plain_ids hh hg
  have hpath {s : GoString} (h : s.all Url.isUnreserved = true) : s.all Url.isPathChar = true := by
    refine List.all_eq_true.mpr fun c hc => ?_
    simp only [Url.isPathChar, List.all_eq_true.mp h c hc, Bool.true_or]
  have hslash : Url.isPathChar 0x2F = true ∧ (lit "g").all Url.isPathChar = true := by decide
  simp only [capabilityPath, List.all_append, List.all_cons, hslash, hpath hh, hpath hg,
    Bool.and_self]

theorem splitOn_capabilityPath (hh : validHostID hostID = true)
    (hg : validGrantID grantID = true) :
    (capabilityPath hostID grantID).splitOn 0x2F = [lit "g", hostID, grantID] := by
  have hjoin : capabilityPath hostID grantID = [0x2F].intercalate [lit "g", hostID, grantID] := by
    simp [capabilityPath, List.intercalate]
  obtain ⟨hh, hg⟩ := plain_ids hh hg
  rw [hjoin]
  refine List.splitOn_intercalate _ ?_ (by simp)
  simp only [List.mem_cons, List.not_mem_nil, or_false, forall_eq_or_imp, forall_eq]
  exact ⟨by decide, slash_notMem hh, slash_notMem hg⟩

theorem trimSlashes_capabilityPath (hg : validGrantID grantID = true) :
    trimSlashes (0x2F :: capabilityPath hostID grantID) = capabilityPath hostID grantID := by
  have hg' : grantID.all Url.isUnreserved = true := isUnreserved_of_matchesID (by decide) hg
  have hne : grantID.reverse ≠ [] := by
    intro hnil
    have hlen := length_of_matchesID hg
    rw [List.reverse_eq_nil_iff.mp hnil] at hlen
    cases hlen
  obtain ⟨c, rest, hrev⟩ := List.exists_cons_of_ne_nil hne
  have hc : ¬ (c == 0x2F) = true := by
    intro heq
    refine slash_notMem hg' ?_
    rw [← beq_iff_eq.mp heq, ← List.mem_reverse, hrev]
    exact List.mem_cons_self
  have hfront : (0x2F :: capabilityPath hostID grantID).dropWhile (· == 0x2F) =
      capabilityPath hostID grantID := rfl
  have hback : (capabilityPath hostID grantID).reverse.dropWhile (· == 0x2F) =
      (capabilityPath hostID grantID).reverse := by
    simp only [capabilityPath, List.reverse_append, List.reverse_cons, hrev, List.cons_append]
    exact List.dropWhile_cons_of_neg hc
  rw [trimSlashes, hfront, hback, List.reverse_reverse]

theorem decodeSecret_b64 (h : secret.length = secretLen) :
    decodeSecret (b64 secret) = .ok secret := by
  rw [decodeSecret, b64Decode_b64]
  exact if_pos h

/-- A minted URL whose origin is a scheme and a plain authority comes back as
its parts, unless something other than digits stands for a port. -/
theorem parseCapabilityURL_plain {scheme authority : GoString}
    (hs : scheme = lit "https" ∨ scheme = lit "http") (ha : authority.all Url.isNameChar = true)
    (hh : validHostID hostID = true) (hg : validGrantID grantID = true)
    (hsecret : secret.length = secretLen) :
    parseCapabilityURL (capabilityURL (scheme ++ lit "://" ++ authority) hostID grantID secret) =
      if Url.portOk authority then
        .ok ⟨scheme ++ lit "://" ++ authority, hostID, grantID, secret⟩
      else .error .malformed := by
  have hlower : scheme ≠ [] ∧ scheme.all Url.isLower = true ∧
      (scheme == lit "https" || scheme == lit "http") = true := by
    rcases hs with rfl | rfl <;> decide
  have hfragment : 0x25 ∉ b64 secret := by
    intro hmem
    have halphabet : (0x25 : UInt8) ∉ b64URLAlphabet := by decide
    exact halphabet (Rfc4648.mem_encode (by decide) hmem)
  have hne : (b64 secret != []) = true := by
    refine bne_iff_ne.mpr fun hnil => ?_
    have hdec := b64Decode_b64 secret
    rw [hnil] at hdec
    cases hdec
    cases hsecret
  rw [parseCapabilityURL, capabilityURL_eq, Url.parse_plain hlower.1 hlower.2.1 ha
    (plain_capabilityPath hh hg) hfragment]
  by_cases hport : Url.portOk authority = true
  · rw [if_pos hport, if_pos hport]
    simp only [readCapability, hlower.2.2, trimSlashes_capabilityPath hg,
      splitOn_capabilityPath hh hg, hh, hg, hne, decodeSecret_b64 hsecret]
    rfl
  · rw [if_neg hport, if_neg hport]

end Grantd.Agent
