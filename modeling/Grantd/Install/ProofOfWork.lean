import Grantd.Base.Double
import Grantd.Base.LeadingZeros
import Grantd.Install.Shell
import Grantd.Service.AgentDO
import Mathlib.Data.Nat.SuccPred

/-!
# Solving the proof of work

`solvePow` of install/redeem.mjs and `solve_pow` of install/redeem.sh, in
Python where there is one and in the shell otherwise, against `verifyPow` of
cloudflare/src/captcha.ts. Each client counts up from 0 and stops at the first
number whose digest passes a test of its own. The tests read the digest in
bytes or in hexadecimal digits, and all of them ask for the same zero bits.
-/

namespace Grantd.Install.ProofOfWork

open Base
open Decimal (intText)
open LeadingZeros (Zeros)

-- ---------------------------------------------------------------------------
-- The clients' tests
-- ---------------------------------------------------------------------------

/-- A whole number as an operand of `>>`. -/
def toInt32 (n : Nat) : Int := (Int32.ofNat n).toInt

/-- `d[i]` as an operand of `>>>`: what is not there counts as 0. -/
def operand (d : Bytes) (i : Int) : UInt8 := if i < 0 then 0 else d.getD i.toNat 0

/-- The test in the loop of `solvePow` in redeem.mjs. -/
def nodeAccepts (d : Bytes) (bits : Nat) : Bool :=
  let whole := toInt32 bits >>> (3 : Nat)
  let rest := bits % 8
  (List.range whole.toNat).all (fun j => d[j]? == some 0) &&
    (rest == 0 || (operand d whole).toNat >>> (8 - rest) == 0)

/-- The test in the Python of `solve_pow`; `none` is an IndexError. -/
def pythonAccepts (d : Bytes) (bits : Nat) : Option Bool :=
  let need := bits / 8
  let rem := bits % 8
  if d.take need = List.replicate need 0 then
    if rem = 0 then some true else d[need]?.map fun b => b.toNat >>> (8 - rem) == 0
  else some false

/-- The pattern `^0+$`. -/
def zeroesRe (s : Bytes) : Bool := s != [] && s.all (· == 0x30)

/-- `leading_zero_bits` of redeem.sh on a text of hexadecimal digits. `none` is
an arithmetic expression that lacks its digit. -/
def leadingZeroBits (hex : Bytes) (bits : Nat) : Option Bool :=
  let full := bits / 4
  let rem := bits % 4
  let head := hex.take full
  if full ≠ 0 ∧ zeroesRe head = false then some false
  else if rem = 0 then some true
  else hex[full]?.map fun next => decide (Hex.value next < 1 <<< (4 - rem))

-- ---------------------------------------------------------------------------
-- The clients' loops
-- ---------------------------------------------------------------------------

/-- Goes on until a test passes. `none` is a loop that has found nothing in so
many turns, or a test that failed with an error. -/
def search (next : ι → ι) (test : ι → Option Bool) : Nat → ι → Option ι
  | 0, _ => none
  | turns + 1, i =>
    match test i with
    | some true => some i
    | some false => search next test turns (next i)
    | none => none

section
variable (sha256 : Bytes → Bytes)

/-- `solvePow` of redeem.mjs. The index is a Number. -/
def solvePow (powPrefix : Bytes) (bits turns : Nat) : Option Bytes :=
  (search (fun i => Double.nearest (i + 1))
    (fun i => some (nodeAccepts (sha256 (powPrefix ++ Decimal.text i)) bits)) turns 0).map
    Decimal.text

/-- `solve_pow` with python3. `bytes.fromhex` is `unhex` on pairs of digits. -/
def solvePowPython (prefixHex : Bytes) (bits turns : Nat) : Option Bytes :=
  (search (· + 1)
    (fun i => pythonAccepts (sha256 (Shell.unhex prefixHex ++ Decimal.text i)) bits) turns 0).map
    Decimal.text

/-- `solve_pow` without it. Shell arithmetic has 64 bits. -/
def solvePowShell (prefixHex : Bytes) (bits turns : Nat) : Option Bytes :=
  (search (· + 1) (fun i : Int64 =>
    leadingZeroBits (Hex.ofBytes (sha256 (Shell.unhex prefixHex ++ intText i.toInt))) bits)
    turns 0).map fun i => intText i.toInt

end

-- ---------------------------------------------------------------------------
-- One test
-- ---------------------------------------------------------------------------

theorem zeroBits_le (byte : UInt8) (h : byte ≠ 0) :
    Service.zeroBits byte 8 < 8 ∧
      ∀ bits ≤ 8, bits ≤ Service.zeroBits byte 8 ↔ byte.toNat / 2 ^ (8 - bits) = 0 := by
  have hbyte := Code.forall_byte (p := fun b => b == 0 || (decide (Service.zeroBits b 8 < 8) &&
    (List.range 9).all fun n => decide (n ≤ Service.zeroBits b 8) ==
      decide (b.toNat / 2 ^ (8 - n) = 0))) (by decide +kernel) byte
  simp only [beq_false_of_ne h, Bool.false_or, Bool.and_eq_true, decide_eq_true_eq,
    List.all_eq_true, List.mem_range, beq_iff_eq] at hbyte
  exact ⟨hbyte.1, fun bits hbits => decide_eq_decide.mp (hbyte.2 bits (by omega))⟩

theorem leadingZeroBits_iff (d : Bytes) (bits : Nat) (h : bits ≤ 8 * d.length) :
    bits ≤ Service.leadingZeroBits d ↔ Zeros d bits := by
  induction d generalizing bits with
  | nil =>
    have hnone : bits = 0 := by simpa using h
    subst hnone
    exact ⟨fun _ => rfl, fun _ => Nat.zero_le _⟩
  | cons x l ih =>
    rw [List.length_cons] at h
    rw [Service.leadingZeroBits]
    rcases Nat.le_total bits 8 with hshort | hlong
    · rw [LeadingZeros.zeros_cons_le x l hshort]
      split
      · rename_i hzero
        rw [hzero]
        simp only [UInt8.toNat_zero, Nat.zero_div, iff_true]
        omega
      · rename_i hne
        exact (zeroBits_le x hne).2 bits hshort
    · obtain ⟨n, rfl⟩ := Nat.exists_eq_add_of_le hlong
      rw [LeadingZeros.zeros_cons_add]
      split
      · rename_i hzero
        rw [← ih n (by omega)]
        simp only [hzero, true_and]
        omega
      · rename_i hne
        have hlt := (zeroBits_le x hne).1
        simp only [hne, false_and, iff_false]
        omega

theorem nodeAccepts_iff (h : bits ≤ 8 * d.length) (hsmall : bits < 2 ^ 31) :
    nodeAccepts d bits = true ↔ Zeros d bits := by
  have hwhole : toInt32 bits >>> (3 : Nat) = ((bits / 8 : Nat) : Int) := by
    rw [toInt32, Int32.toInt_ofNat_of_lt hsmall, Int.shiftRight_eq_div_pow,
      show ((2 ^ 3 : Nat) : Int) = 8 from rfl]
    omega
  have hoperand : operand d ((bits / 8 : Nat) : Int) = d.getD (bits / 8) 0 := by
    rw [operand, if_neg (by omega), Int.toNat_natCast]
  rw [LeadingZeros.zeros_bytes h, nodeAccepts, hwhole, hoperand, Int.toNat_natCast,
    Nat.shiftRight_eq_div_pow]
  simp

theorem take_eq_replicate (d : Bytes) (n : Nat) :
    d.take n = List.replicate n 0 ↔ ∀ i < n, d[i]? = some 0 := by
  constructor
  · intro h i hi
    rw [← List.getElem?_take_of_lt hi, h, List.getElem?_replicate, if_pos hi]
  · intro h
    refine List.ext_getElem? fun i => ?_
    rw [List.getElem?_take, List.getElem?_replicate]
    split
    · rename_i hi
      exact h i hi
    · rfl

theorem pythonAccepts_iff (h : bits ≤ 8 * d.length) :
    ∃ answer, pythonAccepts d bits = some answer ∧ (answer = true ↔ Zeros d bits) := by
  rw [LeadingZeros.zeros_bytes h, pythonAccepts]
  by_cases hneed : d.take (bits / 8) = List.replicate (bits / 8) 0
  · rw [if_pos hneed, and_iff_right ((take_eq_replicate d _).mp hneed)]
    by_cases hrem : bits % 8 = 0
    · exact ⟨true, if_pos hrem, by simp [hrem]⟩
    · have hlt : bits / 8 < d.length := by omega
      refine ⟨_, by rw [if_neg hrem, List.getElem?_eq_getElem hlt, Option.map_some], ?_⟩
      simp [hrem, hlt, Nat.shiftRight_eq_div_pow]
  · refine ⟨false, if_neg hneed, ?_⟩
    rw [take_eq_replicate] at hneed
    simp only [hneed, false_and, Bool.false_eq_true]

theorem zeroesRe_take (hex : Bytes) (h : n ≤ hex.length) (hn : n ≠ 0) :
    zeroesRe (hex.take n) = true ↔ ∀ i < n, hex[i]? = some 0x30 := by
  have hne : hex.take n ≠ [] := by
    rw [Ne, ← List.length_eq_zero_iff, List.length_take]
    omega
  rw [zeroesRe, bne_iff_ne.mpr hne, Bool.true_and, List.all_eq_true]
  constructor
  · intro hall i hi
    have hlt : i < hex.length := by omega
    have hmem : hex[i] ∈ hex.take n := List.mem_take_iff_getElem.mpr ⟨i, by omega, rfl⟩
    rw [List.getElem?_eq_getElem hlt, beq_iff_eq.mp (hall _ hmem)]
  · intro hall c hc
    obtain ⟨i, hi, rfl⟩ := List.mem_take_iff_getElem.mp hc
    have hi' := hall i (by omega)
    rw [List.getElem?_eq_getElem (by omega), Option.some.injEq] at hi'
    exact beq_iff_eq.mpr hi'

theorem leadingZeroBits_shell (h : bits ≤ 8 * d.length) :
    ∃ answer, leadingZeroBits (Hex.ofBytes d) bits = some answer ∧
      (answer = true ↔ Zeros d bits) := by
  have hlen : bits / 4 ≤ (Hex.ofBytes d).length := by
    rw [Hex.length_ofBytes]
    omega
  rw [LeadingZeros.zeros_hex h, leadingZeroBits]
  by_cases hhead : bits / 4 ≠ 0 ∧ zeroesRe ((Hex.ofBytes d).take (bits / 4)) = false
  · refine ⟨false, if_pos hhead, ?_⟩
    have hnot := mt (zeroesRe_take _ hlen hhead.1).mpr (by rw [hhead.2]; exact Bool.false_ne_true)
    simp only [hnot, false_and, Bool.false_eq_true]
  · have hzeros : ∀ i < bits / 4, (Hex.ofBytes d)[i]? = some 0x30 := by
      intro i hi
      have hn : bits / 4 ≠ 0 := by omega
      have htrue : zeroesRe ((Hex.ofBytes d).take (bits / 4)) = true := by
        simpa [hn] using hhead
      exact (zeroesRe_take _ hlen hn).mp htrue i hi
    rw [if_neg hhead, and_iff_right hzeros]
    by_cases hrem : bits % 4 = 0
    · exact ⟨true, if_pos hrem, by simp [hrem]⟩
    · have hlt : bits / 4 < (Hex.ofBytes d).length := by
        rw [Hex.length_ofBytes]
        omega
      refine ⟨_, by rw [if_neg hrem, List.getElem?_eq_getElem hlt, Option.map_some], ?_⟩
      rw [List.getElem?_eq_getElem hlt]
      simp [hrem, Nat.one_shiftLeft]

theorem accepts_eq (h : bits ≤ 8 * d.length) (hsmall : bits < 2 ^ 31) :
    nodeAccepts d bits = decide (bits ≤ Service.leadingZeroBits d) ∧
      pythonAccepts d bits = some (decide (bits ≤ Service.leadingZeroBits d)) ∧
      leadingZeroBits (Hex.ofBytes d) bits =
        some (decide (bits ≤ Service.leadingZeroBits d)) := by
  have hsame {answer : Bool} (hiff : answer = true ↔ Zeros d bits) :
      answer = decide (bits ≤ Service.leadingZeroBits d) := by
    rw [Bool.eq_iff_iff, hiff, decide_eq_true_iff, leadingZeroBits_iff d bits h]
  obtain ⟨python, hpython, hpythonIff⟩ := pythonAccepts_iff h
  obtain ⟨shell, hshell, hshellIff⟩ := leadingZeroBits_shell h
  refine ⟨hsame (nodeAccepts_iff h hsmall), ?_, ?_⟩
  · rw [hpython, hsame hpythonIff]
  · rw [hshell, hsame hshellIff]

-- ---------------------------------------------------------------------------
-- The search
-- ---------------------------------------------------------------------------

theorem search_eq_some {next : ι → ι} {test : ι → Option Bool} {p : ι → Bool}
    (htest : ∀ i, test i = some (p i)) : search next test turns i = some j ↔
      ∃ n < turns, j = next^[n] i ∧ p j = true ∧ ∀ m < n, p (next^[m] i) = false := by
  induction turns generalizing i with
  | zero => simp [search]
  | succ turns ih =>
    cases hp : p i with
    | true =>
      simp only [search, htest, hp, Option.some.injEq]
      constructor
      · rintro rfl
        exact ⟨0, Nat.succ_pos _, rfl, hp, nofun⟩
      · rintro ⟨n, -, rfl, -, hbefore⟩
        cases n with
        | zero => rfl
        | succ n =>
          have := hbefore 0 (Nat.succ_pos _)
          rw [Function.iterate_zero_apply, hp] at this
          cases this
    | false =>
      simp only [search, htest, hp, ih]
      constructor
      · rintro ⟨n, hn, rfl, hhit, hbefore⟩
        refine ⟨n + 1, by omega, rfl, hhit, fun m hm => ?_⟩
        cases m with
        | zero => exact hp
        | succ m => exact hbefore m (by omega)
      · rintro ⟨n, hn, rfl, hhit, hbefore⟩
        cases n with
        | zero =>
          rw [Function.iterate_zero_apply, hp] at hhit
          cases hhit
        | succ n => exact ⟨n, by omega, rfl, hhit, fun m hm => hbefore (m + 1) (by omega)⟩

/-- What a client's search is for. The nonces it finds are accepted; nothing
before them is; and the first number that is accepted is found, as far as the
client can count. -/
structure Finds (accepted : Bytes → Bool) (Within : Nat → Prop) (solve : Nat → Option Bytes) :
    Prop where
  accepts : ∀ turns nonce, solve turns = some nonce →
    nonce.length ≤ Service.maxPowNonceBytes → accepted nonce = true
  inOrder : ∀ turns nonce, solve turns = some nonce → ∃ i : Int, nonce = intText i ∧
    ∀ j : Nat, (j : Int) < i → accepted (Decimal.text j) = false
  first : ∀ i, Within i → accepted (Decimal.text i) = true →
    (∀ j < i, accepted (Decimal.text j) = false) → solve (i + 1) = some (Decimal.text i)

/-- A client counts: it comes to a number it can count to in as many steps,
and to no number without those before it. -/
structure Counts (next : ι → ι) (start : ι) (number : ι → Int) (Within : Nat → Prop) : Prop where
  reaches : ∀ i, Within i → ∀ j ≤ i, number (next^[j] start) = j
  inOrder : ∀ n (j : Nat), (j : Int) < number (next^[n] start) →
    ∃ m < n, number (next^[m] start) = j

theorem length_text_le (h : (Decimal.text i).length ≤ Service.maxPowNonceBytes) (hj : j ≤ i) :
    (Decimal.text j).length ≤ Service.maxPowNonceBytes := by
  rw [Decimal.text, List.length_map, Service.maxPowNonceBytes,
    Nat.length_toDigits_le_iff (by decide) (by decide)] at h ⊢
  omega

theorem Counts.finds {next : ι → ι} {number : ι → Int} {test : ι → Option Bool}
    {accepted p : Bytes → Bool} (h : Counts next start number Within)
    (htest : ∀ i, test i = some (p (intText (number i))))
    (haccepted : ∀ i : Int, accepted (intText i) =
      (decide ((intText i).length ≤ Service.maxPowNonceBytes) && p (intText i))) :
    Finds accepted Within fun turns =>
      (search next test turns start).map fun i => intText (number i) where
  accepts turns nonce hnonce hlen := by
    obtain ⟨i, hi, rfl⟩ := Option.map_eq_some_iff.mp hnonce
    obtain ⟨n, -, -, hhit, -⟩ := (search_eq_some htest).mp hi
    rw [haccepted, hhit, decide_eq_true hlen]
    rfl
  inOrder turns nonce hnonce := by
    obtain ⟨i, hi, rfl⟩ := Option.map_eq_some_iff.mp hnonce
    obtain ⟨n, -, rfl, -, hbefore⟩ := (search_eq_some htest).mp hi
    refine ⟨_, rfl, fun j hj => ?_⟩
    obtain ⟨m, hm, hnumber⟩ := h.inOrder n j hj
    have hmiss := hbefore m hm
    rw [hnumber] at hmiss
    rw [show Decimal.text j = intText j from rfl, haccepted, hmiss, Bool.and_false]
  first i hwithin hhit hbefore := by
    have hi := haccepted i
    rw [show intText i = Decimal.text i from rfl, hhit, eq_comm, Bool.and_eq_true,
      decide_eq_true_eq] at hi
    have hfound : search next test (i + 1) start = some (next^[i] start) := by
      refine (search_eq_some htest).mpr ⟨i, Nat.lt_succ_self i, rfl, ?_, fun m hm => ?_⟩
      · rw [h.reaches i hwithin i (Nat.le_refl i)]
        exact hi.2
      · have hmiss := haccepted m
        rw [show intText m = Decimal.text m from rfl, hbefore m hm,
          decide_eq_true (length_text_le hi.1 (Nat.le_of_lt hm)), Bool.true_and] at hmiss
        rw [h.reaches i hwithin m (Nat.le_of_lt hm)]
        exact hmiss.symm
    rw [hfound, Option.map_some, h.reaches i hwithin i (Nat.le_refl i)]
    rfl

theorem counts_node :
    Counts (fun i => Double.nearest (i + 1)) 0 (fun i : Nat => (i : Int)) (· ≤ 2 ^ 53) where
  reaches i hi j hj := by
    rw [Double.iterate_succ, Nat.min_eq_left (Nat.le_trans hj hi)]
  inOrder n j hj := by
    rw [Double.iterate_succ] at hj
    refine ⟨j, by omega, ?_⟩
    rw [Double.iterate_succ, Nat.min_eq_left (by omega)]

theorem counts_python : Counts (· + 1) 0 (fun i : Nat => (i : Int)) fun _ => True := by
  have hiterate (n : Nat) : (· + 1)^[n] 0 = n := (Nat.succ_iterate 0 n).trans (Nat.zero_add n)
  refine ⟨fun i _ j _ => by rw [hiterate], fun n j hj => ?_⟩
  rw [hiterate] at hj
  exact ⟨j, Int.ofNat_lt.mp hj, by rw [hiterate]⟩

theorem iterate_int64 (n : Nat) : (fun i : Int64 => i + 1)^[n] 0 = Int64.ofNat n := by
  induction n with
  | zero => rfl
  | succ n ih =>
    rw [Function.iterate_succ_apply', ih, Int64.ofNat_add]
    rfl

theorem counts_shell : Counts (· + 1) 0 Int64.toInt (· < 2 ^ 63) where
  reaches i hi j hj := by
    rw [iterate_int64, Int64.toInt_ofNat_of_lt (Nat.lt_of_le_of_lt hj hi)]
  inOrder n j hj := by
    rw [iterate_int64] at hj
    have hlast : j < 2 ^ 63 := by
      have := (Int64.ofNat n).toInt_lt
      omega
    have hlt : j < n := by
      by_cases hn : n < 2 ^ 63
      · rw [Int64.toInt_ofNat_of_lt hn] at hj
        omega
      · omega
    exact ⟨j, hlt, by rw [iterate_int64, Int64.toInt_ofNat_of_lt hlast]⟩

def accepted (C : Service.Subtle) (powPrefix : Bytes) (bits : Nat) (nonce : Bytes) : Bool :=
  Service.verifyPow C powPrefix bits (Service.ofBytes nonce)

theorem intText_ascii (i : Int) : ∀ c ∈ intText i, c < 0x80 := by
  intro c hc
  rcases Decimal.mem_intText hc with rfl | hdigit
  · decide
  · simp only [Decimal.isDigit, Bool.and_eq_true, decide_eq_true_eq] at hdigit
    exact UInt8.lt_of_le_of_lt hdigit.2 (by decide)

def passes (C : Service.Subtle) (powPrefix : Bytes) (bits : Nat) (nonce : Bytes) : Bool :=
  decide (bits ≤ Service.leadingZeroBits (C.sha256 (powPrefix ++ nonce)))

theorem accepted_intText (C : Service.Subtle) (powPrefix : Bytes) (bits : Nat) (i : Int) :
    accepted C powPrefix bits (intText i) =
      (decide ((intText i).length ≤ Service.maxPowNonceBytes) &&
        passes C powPrefix bits (intText i)) := by
  have hne : (intText i).length ≠ 0 := mt List.length_eq_zero_iff.mp (Decimal.intText_ne_nil i)
  simp only [accepted, passes, Service.verifyPow, Service.textEncode_ofBytes (intText_ascii i), hne,
    false_or, Int.ofNat_le]
  by_cases hlen : (intText i).length ≤ Service.maxPowNonceBytes
  · rw [if_neg (by omega), decide_eq_true hlen, Bool.true_and]
  · rw [if_pos (by omega), decide_eq_false hlen, Bool.false_and]

theorem difficultyBits_range (number : Service.JsString → Service.JsNumber) (env : Service.PowEnv) :
    ∃ bits : Nat, Service.ChallengeDO.difficultyBits number env = bits ∧ bits ≤ 32 := by
  have hdefault : ∃ bits : Nat, Service.ChallengeDO.defaultDifficultyBits = bits ∧ bits ≤ 32 :=
    ⟨20, rfl, by decide⟩
  unfold Service.ChallengeDO.difficultyBits
  split
  · exact hdefault
  · exact hdefault
  · split
    · exact hdefault
    · rename_i n _
      split
      · exact hdefault
      · split
        · exact hdefault
        · exact ⟨n.toNat, by omega, by omega⟩

/-- The tests are one predicate, and with it every client's search is for what
the service accepts. A Number of 2^31 bits and more is not the number of bits
that `>>` sees. -/
theorem pow_clients_agree (C : Service.Subtle) (hsha : ∀ b, (C.sha256 b).length = 32) :
    (∀ (d : Bytes) (bits : Nat), bits ≤ 8 * d.length → bits < 2 ^ 31 →
      nodeAccepts d bits = decide (bits ≤ Service.leadingZeroBits d) ∧
      pythonAccepts d bits = some (decide (bits ≤ Service.leadingZeroBits d)) ∧
      leadingZeroBits (Hex.ofBytes d) bits =
        some (decide (bits ≤ Service.leadingZeroBits d))) ∧
    ∀ (powPrefix : Bytes) (number : Service.JsString → Service.JsNumber) (env : Service.PowEnv),
      ∃ bits : Nat, Service.ChallengeDO.difficultyBits number env = bits ∧
        Finds (accepted C powPrefix bits) (· ≤ 2 ^ 53) (solvePow C.sha256 powPrefix bits) ∧
        Finds (accepted C powPrefix bits) (fun _ => True)
          (solvePowPython C.sha256 (Hex.ofBytes powPrefix) bits) ∧
        Finds (accepted C powPrefix bits) (· < 2 ^ 63)
          (solvePowShell C.sha256 (Hex.ofBytes powPrefix) bits) := by
  refine ⟨fun d bits h hsmall => accepts_eq h hsmall, fun powPrefix number env => ?_⟩
  obtain ⟨bits, hbits, hle⟩ := difficultyBits_range number env
  have hdigest (text : Bytes) : bits ≤ 8 * (C.sha256 (powPrefix ++ text)).length := by
    rw [hsha]
    omega
  have haccepts (text : Bytes) := accepts_eq (hdigest text) (by omega)
  have haccepted := accepted_intText C powPrefix bits
  refine ⟨bits, hbits, ?_, ?_, ?_⟩
  · exact counts_node.finds (p := passes C powPrefix bits)
      (fun i => congrArg some (haccepts (intText i)).1) haccepted
  · unfold solvePowPython
    simp only [Shell.unhex_ofBytes]
    exact counts_python.finds (p := passes C powPrefix bits)
      (fun i => (haccepts (intText i)).2.1) haccepted
  · unfold solvePowShell
    simp only [Shell.unhex_ofBytes]
    exact counts_shell.finds (p := passes C powPrefix bits)
      (fun i => (haccepts (intText i.toInt)).2.2) haccepted

namespace Sample

def powPrefix : Bytes := List.replicate 16 5

/-- SHA-256 of the prefix with the first two nonces. -/
def sha256 (b : Bytes) : Bytes :=
  if b = powPrefix ++ lit "0" then
    [0x72, 0xCD, 0xCD, 0x4B, 0x51, 0xB2, 0x94, 0xA4, 0x1F, 0x1B, 0xD2, 0x5D, 0xA7, 0x65, 0xC2, 0xA7,
      0xAE, 0xC2, 0x35, 0x33, 0x11, 0x2E, 0xC4, 0x33, 0x1A, 0x8E, 0x59, 0x2F, 0x98,
        0xD4, 0x7A, 0x94]
  else if b = powPrefix ++ lit "1" then
    [0x08, 0xC7, 0x29, 0x76, 0xD0, 0x86, 0x2C, 0x14, 0x26, 0xC7, 0x20, 0x97, 0x47, 0xB6, 0x98, 0x80,
      0x6F, 0x77, 0x42, 0x28, 0x11, 0xB4, 0x25, 0x9A, 0xDC, 0xD5, 0x29, 0x41, 0xEE,
        0x42, 0xDA, 0x15]
  else List.replicate 32 0

theorem length_sha256 (b : Bytes) : (sha256 b).length = 32 := by
  unfold sha256
  split
  · rfl
  · split
    · rfl
    · rfl

def subtle : Service.Subtle := ⟨sha256, fun _ _ _ => false⟩

def env : Service.PowEnv := ⟨some (Service.js "4"), some (Service.js "1")⟩

def number (s : Service.JsString) : Service.JsNumber :=
  if s = Service.js "4" then .integer 4 else .other

end Sample

theorem pow_clients_agree_sample :
    solvePow Sample.sha256 Sample.powPrefix 4 2 = some (lit "1") ∧
      accepted Sample.subtle Sample.powPrefix 4 (lit "1") = true := by
  obtain ⟨bits, hbits, hnode, -, -⟩ := (pow_clients_agree Sample.subtle Sample.length_sha256).2
    Sample.powPrefix Sample.number Sample.env
  have hfour : Service.ChallengeDO.difficultyBits Sample.number Sample.env = (4 : Nat) := by
    decide +kernel
  obtain rfl : bits = 4 := Int.ofNat.inj (hbits.symm.trans hfour)
  have hsolve : solvePow Sample.sha256 Sample.powPrefix 4 2 = some (lit "1") := by decide +kernel
  exact ⟨hsolve, hnode.accepts 2 _ hsolve (by decide)⟩

/-- On a text of 2^28 bytes the test of redeem.mjs is not that of the service:
`>>` takes 2^31 for a negative number. -/
theorem node_shift_wraps : ∃ (d : Bytes) (bits : Nat), bits ≤ 8 * d.length ∧
    nodeAccepts d bits = true ∧ ¬ bits ≤ Service.leadingZeroBits d := by
  refine ⟨1 :: List.replicate (2 ^ 28 - 1) 1, 2 ^ 31, ?_, ?_, ?_⟩
  · rw [List.length_cons, List.length_replicate]
    decide
  · have hwhole : (toInt32 (2 ^ 31) >>> (3 : Nat)).toNat = 0 := by decide
    simp only [nodeAccepts, hwhole]
    rfl
  · rw [Service.leadingZeroBits]
    decide

end Grantd.Install.ProofOfWork
