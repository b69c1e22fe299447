import Grantd.Base.Code
import Grantd.Base.Decimal
import Mathlib.Data.List.TakeWhile

/-!
# Splitting a URL

The split of RFC 3986 into scheme, authority, path and fragment, by a parser
that decodes percent-encoded bytes and asks of an authority that only digits
stand behind its last colon.
-/

namespace Base

open Decimal (isDigit)

structure Url where
  scheme : List UInt8
  host : List UInt8
  path : List UInt8
  fragment : List UInt8
  deriving DecidableEq, Repr

namespace Url

def isLower (c : UInt8) : Bool := 0x61 ≤ c && c ≤ 0x7A
def isUpper (c : UInt8) : Bool := 0x41 ≤ c && c ≤ 0x5A
def isAlnum (c : UInt8) : Bool := isLower c || isUpper c || isDigit c

def isUnreserved (c : UInt8) : Bool :=
  isAlnum c || c == 0x2D || c == 0x2E || c == 0x5F || c == 0x7E

def isSubDelim (c : UInt8) : Bool :=
  c == 0x21 || c == 0x24 || (0x26 ≤ c && c ≤ 0x2C) || c == 0x3B || c == 0x3D

-- ---------------------------------------------------------------------------
-- Cutting
-- ---------------------------------------------------------------------------

/-- What stands before the first `c`, and what stands behind it. -/
def cut (c : UInt8) (s : List UInt8) : List UInt8 × List UInt8 :=
  (s.takeWhile (· != c), (s.dropWhile (· != c)).drop 1)

def afterLast (c : UInt8) (s : List UInt8) : List UInt8 :=
  (s.reverse.takeWhile (· != c)).reverse

section
variable [DecidableEq α] {c : α} {a b : List α}

theorem bne_of_notMem (h : c ∉ a) : ∀ x ∈ a, (x != c) = true := by
  intro x hx
  exact bne_iff_ne.mpr fun he => h (he ▸ hx)

theorem takeWhile_ne (h : c ∉ a) : (a ++ c :: b).takeWhile (· != c) = a := by
  rw [List.takeWhile_append_of_pos (bne_of_notMem h), List.takeWhile_cons_of_neg (by simp),
    List.append_nil]

theorem dropWhile_ne (h : c ∉ a) : (a ++ c :: b).dropWhile (· != c) = c :: b := by
  rw [List.dropWhile_append_of_pos (bne_of_notMem h), List.dropWhile_cons_of_neg (by simp)]

end

theorem cut_append (h : c ∉ a) : cut c (a ++ c :: b) = (a, b) := by
  rw [cut, takeWhile_ne h, dropWhile_ne h]
  rfl

theorem cut_of_notMem (h : c ∉ a) : cut c a = (a, []) := by
  rw [cut, List.takeWhile_eq_self_iff.mpr (bne_of_notMem h),
    List.dropWhile_eq_nil_iff.mpr (bne_of_notMem h)]
  rfl

-- ---------------------------------------------------------------------------
-- The parser
-- ---------------------------------------------------------------------------

def hexValue (c : UInt8) : Option Nat :=
  if isDigit c then some (c.toNat - 0x30)
  else if 0x61 ≤ c && c ≤ 0x66 then some (c.toNat - 0x61 + 10)
  else if 0x41 ≤ c && c ≤ 0x46 then some (c.toNat - 0x41 + 10)
  else none

/-- Percent-decoding; `plain` and `escaped` say which bytes may stand for
themselves and which may be escaped. -/
def unescape (plain escaped : UInt8 → Bool) : List UInt8 → Option (List UInt8)
  | [] => some []
  | c :: rest =>
    if c == 0x25 then
      match rest with
      | a :: b :: rest => do
        let byte := UInt8.ofNat (16 * (← hexValue a) + (← hexValue b))
        if escaped byte then (unescape plain escaped rest).map (byte :: ·) else none
      | _ => none
    else if plain c then (unescape plain escaped rest).map (c :: ·)
    else none

def unescapeAny : List UInt8 → Option (List UInt8) := unescape (fun _ => true) fun _ => true

def isHostChar (c : UInt8) : Bool :=
  0x80 ≤ c || isUnreserved c || isSubDelim c || c == 0x3A || c == 0x5B || c == 0x5D ||
    c == 0x3C || c == 0x3E || c == 0x22

/-- In a host only what is not ASCII is escaped, and the percent sign. -/
def unescapeHost : List UInt8 → Option (List UInt8) :=
  unescape isHostChar fun c => 0x80 ≤ c || c == 0x25

def optionalPort : List UInt8 → Bool
  | [] => true
  | c :: digits => c == 0x3A && digits.all isDigit

/-- Only digits stand behind the last colon, if there is one. -/
def portOk (host : List UInt8) : Bool := !host.contains 0x3A || (afterLast 0x3A host).all isDigit

def parseHost (host : List UInt8) : Option (List UInt8) :=
  if host.head? == some 0x5B then
    if host.contains 0x5D && optionalPort (afterLast 0x5D host) then unescapeHost host else none
  else if portOk host then unescapeHost host
  else none

def isUserinfoChar (c : UInt8) : Bool :=
  isUnreserved c || isSubDelim c || c == 0x3A || c == 0x25 || c == 0x40

/-- The host of an authority, with its port. What stands before an `@` has to
be well formed. -/
def parseAuthority (authority : List UInt8) : Option (List UInt8) :=
  if authority.contains 0x40 then do
    let host := afterLast 0x40 authority
    let userinfo := authority.take (authority.length - host.length - 1)
    let _ ← unescapeAny userinfo
    if userinfo.all isUserinfoChar then parseHost host else none
  else parseHost authority

def isSchemeChar (c : UInt8) : Bool := isAlnum c || c == 0x2B || c == 0x2D || c == 0x2E

/-- A scheme starts with a letter; a colon in front of everything is an error. -/
def getScheme (s : List UInt8) : Option (List UInt8 × List UInt8) :=
  let scheme := s.takeWhile isSchemeChar
  match s.dropWhile isSchemeChar, scheme with
  | 0x3A :: _, [] => none
  | 0x3A :: rest, c :: _ => if isLower c || isUpper c then some (scheme, rest) else some ([], s)
  | _, _ => some ([], s)

def toLower (c : UInt8) : UInt8 := if isUpper c then c + 0x20 else c

def isControl (c : UInt8) : Bool := c < 0x20 || c == 0x7F

/-- What follows a scheme, up to the query. -/
def parseRest (scheme rest fragment : List UInt8) : Option Url :=
  match rest with
  | 0x2F :: 0x2F :: rest => do
    let authority := rest.takeWhile (· != 0x2F)
    if scheme == [] && rest.head? == some 0x2F then
      some ⟨scheme, [], ← unescapeAny (0x2F :: 0x2F :: rest), fragment⟩
    else
      some ⟨scheme, ← parseAuthority authority, ← unescapeAny (rest.dropWhile (· != 0x2F)),
        fragment⟩
  | 0x2F :: rest => do some ⟨scheme, [], ← unescapeAny (0x2F :: rest), fragment⟩
  | rest =>
    if scheme != [] then some ⟨scheme, [], [], fragment⟩
    else if (rest.takeWhile (· != 0x2F)).contains 0x3A then none
    else do some ⟨scheme, [], ← unescapeAny rest, fragment⟩

def parse (raw : List UInt8) : Option Url := do
  let (u, fragment) := cut 0x23 raw
  let fragment ← unescapeAny fragment
  if u.any isControl then none
  else if u == [0x2A] then some ⟨[], [], u, fragment⟩
  else do
    let (scheme, rest) ← getScheme u
    parseRest (scheme.map toLower) (cut 0x3F rest).1 fragment

-- ---------------------------------------------------------------------------
-- Text with nothing to decode
-- ---------------------------------------------------------------------------

theorem unescape_plain {plain : UInt8 → Bool} (h : s.all plain = true) (hpct : 0x25 ∉ s) :
    unescape plain escaped s = some s := by
  induction s with
  | nil => rfl
  | cons c rest ih =>
    simp only [List.all_cons, Bool.and_eq_true, List.mem_cons, not_or] at h hpct
    have hc : (c == 0x25) = false := beq_eq_false_iff_ne.mpr (Ne.symm hpct.1)
    unfold unescape
    simp only [hc, h.1, ih h.2 hpct.2, Bool.false_eq_true, if_false, if_true, Option.map_some]

theorem unescapeAny_plain (hpct : 0x25 ∉ s) : unescapeAny s = some s :=
  unescape_plain (by simp) hpct

def isNameChar (c : UInt8) : Bool := isAlnum c || c == 0x2D || c == 0x2E || c == 0x3A

theorem notMem_of_all {p : UInt8 → Bool} {s : List UInt8} (h : s.all p = true) (hc : p c = false) :
    c ∉ s := by
  intro hmem
  rw [List.all_eq_true.mp h c hmem] at hc
  cases hc

theorem parseAuthority_name (h : authority.all isNameChar = true) :
    parseAuthority authority = if portOk authority then some authority else none := by
  have hat : authority.contains 0x40 = false := by
    simpa using notMem_of_all h (by decide)
  have hhead : (authority.head? == some 0x5B) = false := by
    refine beq_eq_false_iff_ne.mpr fun he => ?_
    exact notMem_of_all h (by decide) (List.mem_of_mem_head? he)
  have hhost : unescapeHost authority = some authority := by
    refine unescape_plain (List.all_eq_true.mpr fun c hc => ?_) (notMem_of_all h (by decide))
    have hname := List.all_eq_true.mp h c hc
    simp only [isNameChar, Bool.or_eq_true] at hname
    simp only [isHostChar, isUnreserved, Bool.or_eq_true]
    rcases hname with ((h | h) | h) | h <;> simp only [h, true_or, or_true]
  simp only [parseAuthority, hat, parseHost, hhead, hhost, Bool.false_eq_true, if_false]

def isPathChar (c : UInt8) : Bool := isUnreserved c || c == 0x2F

/-- The text of a URL whose parts need no escaping, up to its fragment. -/
def plainText (scheme authority path : List UInt8) : List UInt8 :=
  scheme ++ 0x3A :: 0x2F :: 0x2F :: (authority ++ 0x2F :: path)

variable {scheme authority path fragment : List UInt8}

theorem getScheme_append (hne : scheme ≠ []) (h : scheme.all isLower = true) :
    getScheme (scheme ++ 0x3A :: rest) = some (scheme, rest) := by
  have hchar : ∀ c ∈ scheme, isSchemeChar c = true := by
    intro c hc
    simp only [isSchemeChar, isAlnum, List.all_eq_true.mp h c hc, Bool.true_or]
  have hcolon : ¬ isSchemeChar 0x3A = true := by decide
  rw [getScheme, List.takeWhile_append_of_pos hchar, List.dropWhile_append_of_pos hchar,
    List.takeWhile_cons_of_neg hcolon, List.dropWhile_cons_of_neg hcolon, List.append_nil]
  cases scheme with
  | nil => exact absurd rfl hne
  | cons c cs =>
    simp only [List.all_cons, Bool.and_eq_true] at h
    simp only [h.1, Bool.true_or, if_true]

theorem map_toLower (h : scheme.all isLower = true) : scheme.map toLower = scheme := by
  induction scheme with
  | nil => rfl
  | cons c cs ih =>
    simp only [List.all_cons, Bool.and_eq_true] at h
    have hupper : isUpper c = false := by
      simp only [isLower, isUpper, Bool.and_eq_true, decide_eq_true_eq, Bool.and_eq_false_iff,
        decide_eq_false_iff_not, UInt8.not_le] at h ⊢
      exact .inr (Nat.lt_of_lt_of_le (by decide) h.1.1)
    rw [List.map_cons, ih h.2, toLower, hupper, if_neg Bool.false_ne_true]

theorem notMem_plainText (hs : scheme.all isLower = true) (ha : authority.all isNameChar = true)
    (hp : path.all isPathChar = true)
    (hc : isLower c = false ∧ isNameChar c = false ∧ isPathChar c = false) :
    c ∉ plainText scheme authority path := by
  have hdelim : c ≠ 0x3A ∧ c ≠ 0x2F := by
    refine ⟨?_, ?_⟩
    · rintro rfl
      exact absurd hc.2.1 (by decide)
    · rintro rfl
      exact absurd hc.2.2 (by decide)
  simp only [plainText, List.mem_append, List.mem_cons, hdelim, false_or, not_or]
  exact ⟨notMem_of_all hs hc.1, notMem_of_all ha hc.2.1, notMem_of_all hp hc.2.2⟩

theorem chars_of_isControl (hc : isControl c = true) :
    isLower c = false ∧ isNameChar c = false ∧ isPathChar c = false := by
  have h := Code.forall_byte (p := fun c => !isControl c ||
    !isLower c && !isNameChar c && !isPathChar c) (by decide +kernel) c
  simpa [hc, and_assoc] using h

theorem parse_plain (hne : scheme ≠ []) (hs : scheme.all isLower = true)
    (ha : authority.all isNameChar = true) (hp : path.all isPathChar = true)
    (hf : 0x25 ∉ fragment) :
    parse (plainText scheme authority path ++ 0x23 :: fragment) =
      if portOk authority then some ⟨scheme, authority, 0x2F :: path, fragment⟩ else none := by
  have hcut : cut 0x23 (plainText scheme authority path ++ 0x23 :: fragment) =
      (plainText scheme authority path, fragment) :=
    cut_append (notMem_plainText hs ha hp (by decide))
  have hcontrol : (plainText scheme authority path).any isControl = false :=
    List.any_eq_false.mpr fun c hc hctl => notMem_plainText hs ha hp (chars_of_isControl hctl) hc
  have hstar : (plainText scheme authority path == [0x2A]) = false := by
    refine beq_eq_false_iff_ne.mpr fun he => ?_
    exact notMem_plainText hs ha hp (c := 0x2A) (by decide) (he ▸ List.mem_singleton_self _)
  have hquery : cut 0x3F (0x2F :: 0x2F :: (authority ++ 0x2F :: path)) =
      (0x2F :: 0x2F :: (authority ++ 0x2F :: path), []) := by
    refine cut_of_notMem fun hmem => notMem_plainText hs ha hp (c := 0x3F) (by decide) ?_
    exact List.mem_append_right _ (List.mem_cons_of_mem _ hmem)
  have hslash : 0x2F ∉ authority := notMem_of_all ha (by decide)
  have hpath : unescapeAny (0x2F :: path) = some (0x2F :: path) := by
    refine unescapeAny_plain ?_
    rw [List.mem_cons, not_or]
    exact ⟨by decide, notMem_of_all hp (by decide)⟩
  have hscheme : (scheme == []) = false := beq_eq_false_iff_ne.mpr hne
  simp only [parse, hcut, unescapeAny_plain hf, hcontrol, hstar, Bool.false_eq_true, if_false, bind,
    Option.bind_some]
  rw [plainText, getScheme_append hne hs]
  simp only [Option.bind_some, map_toLower hs, hquery, parseRest, hscheme, Bool.false_and,
    Bool.false_eq_true, if_false, takeWhile_ne hslash, dropWhile_ne hslash, hpath,
    parseAuthority_name ha]
  split <;> rfl

end Url

end Base
