import Grantd.Base.Check
import Grantd.Canonical
import Mathlib.Data.List.Infix

/-!
# Field validation and clock windows

go/internal/protocol/validate.go, with the limits of envelopes.go and ids.go.
Timestamps are `int64`, so `withinSkew` computes with wraparound as the source
does; `withinSkew_iff` says exactly when that differs from the distance.
-/

namespace Grantd.Protocol

open Base Canonical

def skewRedemption : Int64 := 120

def minGrantTTLSeconds : Int64 := 60
def maxGrantTTLSeconds : Int64 := 8 * 3600
def defaultGrantTTL : Int64 := 30 * 60

def maxSSHPubKeyBytes : Nat := 1024
def maxHostnameBytes : Nat := 253
def maxUsernameBytes : Nat := 32

inductive ValidationError
  | sshUserRequired
  | sshUserTooLong
  | sshUserInvalid (u : GoString)
  | sshUserRoot
  | hostnameRequired
  | hostnameTooLong
  | hostnameInvalid (h : GoString)
  | sshPortRange (p : UInt64)
  | windowOrder
  | ttlBelowMinimum (ttl : Int64)
  | ttlAboveMaximum (ttl : Int64)
  deriving DecidableEq, Repr

def isLower (c : UInt8) : Bool := within 0x61 0x7A c
def isUpper (c : UInt8) : Bool := within 0x41 0x5A c
def isDigit (c : UInt8) : Bool := within 0x30 0x39 c

/-- The pattern `^[a-z_][a-z0-9_-]{0,31}$`. -/
def usernameRe : GoString → Bool
  | [] => false
  | c :: cs => (isLower c || c == 0x5F) && decide (cs.length ≤ 31) &&
      cs.all fun c => isLower c || isDigit c || c == 0x5F || c == 0x2D

def isHostnameChar (c : UInt8) : Bool :=
  isUpper c || isLower c || isDigit c || (lit "._:[]-").contains c

/-- The pattern `^[A-Za-z0-9._:\[\]-]{1,253}$`. -/
def hostnameRe (h : GoString) : Bool :=
  decide (1 ≤ h.length) && decide (h.length ≤ 253) && h.all isHostnameChar

def root : GoString := lit "root"

def validateSSHUser (u : GoString) : Except ValidationError Unit := do
  ensure (u != []) .sshUserRequired
  ensure (u.length ≤ maxUsernameBytes) .sshUserTooLong
  ensure (usernameRe u) (.sshUserInvalid u)
  ensure (u != root) .sshUserRoot

def validateHostname (h : GoString) : Except ValidationError Unit := do
  ensure (h != []) .hostnameRequired
  ensure (h.length ≤ maxHostnameBytes) .hostnameTooLong
  ensure (hostnameRe h && !decide (lit ".." <:+: h)) (.hostnameInvalid h)

def validatePort (p : UInt64) : Except ValidationError Unit :=
  ensure (!(p == 0 || p > 65535)) (.sshPortRange p)

def validateGrantWindow (createdAt expiresAt : Int64) : Except ValidationError Unit := do
  ensure (!decide (expiresAt ≤ createdAt)) .windowOrder
  let ttl := expiresAt - createdAt
  ensure (!decide (ttl < minGrantTTLSeconds)) (.ttlBelowMinimum ttl)
  ensure (!decide (ttl > maxGrantTTLSeconds)) (.ttlAboveMaximum ttl)

def withinSkew (now ts skew : Int64) : Bool :=
  let d := now - ts
  let d := if d < 0 then -d else d
  d ≤ skew

theorem validateSSHUser_ok (h : validateSSHUser u = .ok ()) : u ≠ [] ∧ u ≠ root := by
  simp only [validateSSHUser, bind_eq_ok, ensure_eq_ok, bne_iff_ne] at h
  obtain ⟨_, hne, _, -, _, -, hroot⟩ := h
  exact ⟨hne, hroot⟩

theorem length_of_validateSSHUser (h : validateSSHUser u = .ok ()) :
    u.length ≤ maxUsernameBytes := by
  simp only [validateSSHUser, bind_eq_ok, ensure_eq_ok] at h
  obtain ⟨_, -, _, hlen, -⟩ := h
  exact of_decide_eq_true hlen

theorem length_of_validateHostname {name : GoString} (h : validateHostname name = .ok ()) :
    name.length ≤ maxHostnameBytes := by
  simp only [validateHostname, bind_eq_ok, ensure_eq_ok] at h
  obtain ⟨_, -, _, hlen, -⟩ := h
  exact of_decide_eq_true hlen

-- ---------------------------------------------------------------------------
-- The skew window
-- ---------------------------------------------------------------------------

/-- The window as the protocol means it: a distance between two integers. -/
def Within (now ts : Int64) (skew : Nat) : Prop := (now.toInt - ts.toInt).natAbs ≤ skew

instance : Decidable (Within now ts skew) := inferInstanceAs (Decidable (_ ≤ _))

/-- The timestamps that only look close: the difference is the one `int64`
without a negative, or it wraps past the whole range. -/
def SkewWraps (now ts : Int64) (skew : Nat) : Prop :=
  (now.toInt - ts.toInt).natAbs = 2 ^ 63 ∨ 2 ^ 64 ≤ (now.toInt - ts.toInt).natAbs + skew

instance : Decidable (SkewWraps now ts skew) := inferInstanceAs (Decidable (_ ∨ _))

theorem withinSkew_iff {now ts skew : Int64} {k : Nat} (hskew : skew.toInt = k) :
    withinSkew now ts skew = true ↔ Within now ts k ∨ SkewWraps now ts k := by
  have hn := now.toInt_lt
  have hn' := now.le_toInt
  have ht := ts.toInt_lt
  have ht' := ts.le_toInt
  have hk := skew.toInt_lt
  simp only [withinSkew, decide_eq_true_eq, Within, SkewWraps, Int64.le_iff_toInt_le,
    Int64.lt_iff_toInt_lt, apply_ite Int64.toInt, Int64.toInt_neg, Int64.toInt_sub,
    Int.bmod_def, hskew, Int64.toInt_zero]
  omega

theorem not_within_of_wraps (h : SkewWraps now ts k) (hk : k < 2 ^ 63) : ¬ Within now ts k := by
  unfold SkewWraps at h
  unfold Within
  omega

end Grantd.Protocol
