import Grantd.Base.Url
import Grantd.Protocol.Ids
import Grantd.Protocol.Validate

/-!
# The name of a host

`ValidateDNSSuffix` and `HostDNSName` of go/internal/protocol/validate.go. A
host asks for its name by signing it as its hostname. Lower-casing is Go's, a
parameter that maps the letters of ASCII text and nothing else in it.
-/

namespace Grantd.Protocol

open Base Canonical

def isLdh (c : UInt8) : Bool := isLower c || isDigit c || c == 0x2D

/-- The pattern `[a-z0-9]([a-z0-9-]*[a-z0-9])?`: letters, digits and hyphens,
with no hyphen at either end. -/
def isDnsLabel (l : GoString) : Bool :=
  l.all isLdh && l.head?.any (fun c => isLower c || isDigit c) &&
    l.getLast?.any fun c => isLower c || isDigit c

/-- The pattern of `dnsSuffixRe`: two labels or more, with a dot between them. -/
def dnsSuffixRe (s : GoString) : Bool :=
  decide (2 ≤ (s.splitOn 0x2E).length) && (s.splitOn 0x2E).all isDnsLabel

/-- The pattern `^[a-z2-7]{32}$`. -/
def hostLabelRe (label : GoString) : Bool := matchesID [] 32 label

inductive DNSNameError
  | suffixRequired
  | suffixInvalid (s : GoString)
  | hostID (id : GoString)
  | hostname (e : ValidationError)
  deriving DecidableEq, Repr

section
variable (toLower : GoString → GoString)

def validateDNSSuffix (s : GoString) : Except DNSNameError Unit := do
  ensure (s != []) .suffixRequired
  ensure (dnsSuffixRe (toLower s)) (.suffixInvalid s)

def hostDNSName (hostID suffix : GoString) : Except DNSNameError GoString := do
  validateDNSSuffix toLower suffix
  let label := hostID.drop (lit "h_").length
  ensure ((lit "h_").isPrefixOf hostID && hostLabelRe label) (.hostID hostID)
  let name := label ++ lit "." ++ toLower suffix
  (validateHostname name).mapError .hostname
  pure name

end

-- ---------------------------------------------------------------------------
-- Names that are built are hostnames
-- ---------------------------------------------------------------------------

theorem hostLabelRe_drop (id : GoString) :
    ((lit "h_").isPrefixOf id && hostLabelRe (id.drop (lit "h_").length)) = validHostID id := by
  simp [hostLabelRe, validHostID, matchesID, Bool.and_assoc]

theorem ne_nil_of_isDnsLabel (h : isDnsLabel l = true) : l ≠ [] := by
  rintro rfl
  cases h

theorem nil_mem_splitOn {s : GoString} (h : [0x2E, 0x2E] <:+: s) : [] ∈ s.splitOn 0x2E := by
  obtain ⟨a, b, rfl⟩ := h
  have hsplit : (a ++ [0x2E, 0x2E] ++ b).splitOn 0x2E =
      a.splitOn 0x2E ++ ([].splitOn 0x2E ++ b.splitOn 0x2E) := by
    rw [List.append_assoc, List.cons_append, List.splitOn_append_cons_self]
    exact congrArg _ (List.splitOn_append_cons_self [] b)
  rw [hsplit]
  simp

theorem splitOn_map [BEq α] [BEq β] {f : α → β} {x : α} {y : β}
    (hf : ∀ c, (f c == y) = (c == x)) (s : List α) :
    (s.map f).splitOn y = (s.splitOn x).map (List.map f) := by
  induction s with
  | nil => rfl
  | cons c s ih =>
    rw [List.map_cons, List.splitOn_cons_eq_if_modifyHead, List.splitOn_cons_eq_if_modifyHead, hf,
      ih]
    split
    · rfl
    · cases s.splitOn x with
      | nil => rfl
      | cons l ls => rfl

variable {label suffix : GoString}

theorem dot_notMem (h : hostLabelRe label = true) : 0x2E ∉ label := by
  intro hmem
  rcases mem_of_matchesID h hmem with hnil | hb32
  · cases hnil
  · exact absurd hb32 (by decide)

theorem splitOn_name (hl : hostLabelRe label = true) :
    (label ++ lit "." ++ suffix).splitOn 0x2E = label :: suffix.splitOn 0x2E := by
  have hdot : lit "." = [0x2E] := by decide
  rw [hdot, List.append_assoc, List.singleton_append,
    List.splitOn_append_cons_self_of_not_mem (dot_notMem hl)]

theorem mem_splitOn {x c : UInt8} {s : GoString} (h : c ∈ s) :
    c = x ∨ ∃ l ∈ s.splitOn x, c ∈ l := by
  induction s with
  | nil => cases h
  | cons a s ih =>
    rw [List.splitOn_cons_eq_if_modifyHead]
    split
    · rename_i hax
      rcases List.mem_cons.mp h with rfl | hs
      · exact .inl (beq_iff_eq.mp hax)
      · exact (ih hs).imp_right fun ⟨l, hl, hc⟩ => ⟨l, List.mem_cons_of_mem _ hl, hc⟩
    · obtain ⟨l, ls, hsplit⟩ := List.exists_cons_of_ne_nil (List.splitOn_ne_nil x s)
      rw [hsplit] at ih ⊢
      rcases List.mem_cons.mp h with rfl | hs
      · exact .inr ⟨_, List.mem_cons_self, List.mem_cons_self⟩
      · rcases ih hs with heq | ⟨l', hl', hc⟩
        · exact .inl heq
        · rcases List.mem_cons.mp hl' with rfl | hl'
          · exact .inr ⟨_, List.mem_cons_self, List.mem_cons_of_mem _ hc⟩
          · exact .inr ⟨l', List.mem_cons_of_mem _ hl', hc⟩

theorem isHostnameChar_of_suffix (h : dnsSuffixRe suffix = true) (hc : c ∈ suffix) :
    isHostnameChar c = true := by
  simp only [dnsSuffixRe, Bool.and_eq_true, List.all_eq_true] at h
  have hclass := Code.forall_byte (p := fun c => !isLdh c || isHostnameChar c) (by decide +kernel) c
  rcases mem_splitOn (x := 0x2E) hc with rfl | ⟨l, hl, hcl⟩
  · decide
  · have hlabel := h.2 l hl
    simp only [isDnsLabel, Bool.and_eq_true, List.all_eq_true] at hlabel
    simpa [hlabel.1.1 c hcl] using hclass

theorem validateHostname_name (hl : hostLabelRe label = true) (hs : dnsSuffixRe suffix = true) :
    validateHostname (label ++ lit "." ++ suffix) = .ok () ↔ suffix.length ≤ 220 := by
  have hlen : label.length = 32 := length_of_matchesID hl
  have hdot : lit "." = [0x2E] := by decide
  have hnil : label ++ lit "." ++ suffix ≠ [] := by simp [hdot]
  have hchars : (label ++ lit "." ++ suffix).all isHostnameChar = true := by
    refine List.all_eq_true.mpr fun c hc => ?_
    simp only [hdot, List.mem_append, List.mem_singleton] at hc
    rcases hc with (hc | rfl) | hc
    · rcases mem_of_matchesID hl hc with hnil | hb32
      · cases hnil
      · have hclass := Code.forall_byte (p := fun c => !isB32 c || isHostnameChar c)
          (by decide +kernel) c
        simpa [hb32] using hclass
    · decide
    · exact isHostnameChar_of_suffix hs hc
  have hdots : ¬ lit ".." <:+: label ++ lit "." ++ suffix := by
    intro hinfix
    have hmem := nil_mem_splitOn hinfix
    rw [splitOn_name hl, List.mem_cons] at hmem
    simp only [dnsSuffixRe, Bool.and_eq_true, List.all_eq_true] at hs
    rcases hmem with heq | hmem
    · rw [← heq] at hlen
      cases hlen
    · exact ne_nil_of_isDnsLabel (hs.2 _ hmem) rfl
  have htotal : (label ++ lit "." ++ suffix).length = 33 + suffix.length := by
    rw [List.length_append, List.length_append, hlen, hdot]
    rfl
  simp only [validateHostname, bind_eq_ok, ensure_eq_ok, bne_iff_ne, hostnameRe, hchars, hdots,
    htotal, decide_eq_true_eq, maxHostnameBytes, decide_false, Bool.not_false, Bool.and_true,
    Bool.and_eq_true]
  constructor
  · rintro ⟨_, -, _, hle, -⟩
    omega
  · intro hle
    exact ⟨(), hnil, (), by omega, by omega, by omega⟩

theorem hostDNSName_eq_ok {toLower : GoString → GoString} {id s n : GoString}
    (hlower : toLower [] = []) :
    hostDNSName toLower id s = .ok n ↔ (validHostID id = true ∧ dnsSuffixRe (toLower s) = true) ∧
      (toLower s).length ≤ 220 ∧ n = id.drop 2 ++ lit "." ++ toLower s := by
  have hne (h : dnsSuffixRe (toLower s) = true) : s ≠ [] := by
    rintro rfl
    rw [hlower] at h
    exact absurd h (by decide)
  have htag : (lit "h_").length = 2 := by decide
  have hid := hostLabelRe_drop id
  rw [htag] at hid
  have hlabel (h : validHostID id = true) : hostLabelRe (id.drop 2) = true :=
    (Bool.and_eq_true_iff.mp (hid.trans h)).2
  simp only [hostDNSName, validateDNSSuffix, bind_eq_ok, ensure_eq_ok, mapError_eq_ok, pure_eq_ok,
    bne_iff_ne, htag, hid]
  constructor
  · rintro ⟨_, ⟨_, -, hs⟩, _, hvalid, _, hname, rfl⟩
    exact ⟨⟨hvalid, hs⟩, (validateHostname_name (hlabel hvalid) hs).mp hname, rfl⟩
  · rintro ⟨⟨hvalid, hs⟩, hlen, rfl⟩
    exact ⟨(), ⟨(), hne hs, hs⟩, (), hvalid, (),
      (validateHostname_name (hlabel hvalid) hs).mpr hlen, rfl⟩

end Grantd.Protocol
