import Grantd.Base.Decimal
import Grantd.Base.Hex
import Grantd.Base.Quintets
import Grantd.Install.Items
import Mathlib.Data.List.TakeWhile

/-!
# The shell client

install/redeem.sh, from the text of the host record to the checks it has to
pass. The text is not parsed: sed takes what stands behind the last key of a
name, line by line. Bytes are kept as hexadecimal text, and numbers as the
digits that were found; `printf` reads these as C does, `test` and ssh in
decimal. The tools that decode, hash and verify are parameters.
-/

namespace Grantd.Install.Shell

open Base

/-- openssl. `base64` is `openssl base64 -d -A`, which decodes at least what is
standard base64. -/
structure Tools where
  sha256 : Bytes → Bytes
  ed25519Verify (pub msg sig : Bytes) : Bool
  base64 : Bytes → Bytes
  base64_stdEncoding (b : Bytes) : base64 (Protocol.stdEncoding b) = b

-- ---------------------------------------------------------------------------
-- sed, head and grep
-- ---------------------------------------------------------------------------

/-- What the last suffix that matches gives: `.*` is greedy. -/
def lastMatch (p : Bytes → Option α) : Bytes → Option α
  | [] => p []
  | c :: rest =>
    match lastMatch p rest with
    | some a => some a
    | none => p (c :: rest)

def isSpace (c : UInt8) : Bool := c == 0x20 || (0x09 ≤ c && c ≤ 0x0D)

/-- Behind `"key"[[:space:]]*:[[:space:]]*`. -/
def afterKey (key : String) (s : Bytes) : Option Bytes :=
  let quoted := 0x22 :: lit key ++ [0x22]
  if quoted.isPrefixOf s then
    match (s.drop quoted.length).dropWhile isSpace with
    | 0x3A :: rest => some (rest.dropWhile isSpace)
    | _ => none
  else none

/-- What stands between two delimiters, the second of which it does not
contain. -/
def between (opening closing : UInt8) : Bytes → Option Bytes
  | [] => none
  | c :: rest =>
    if c = opening ∧ closing ∈ rest then some (rest.takeWhile (· ≠ closing)) else none

def digits (s : Bytes) : Option Bytes :=
  match s.takeWhile Decimal.isDigit with
  | [] => none
  | ds => some ds

def lines (text : Bytes) : List Bytes := text.splitOn 0x0A

def jsonStr (text : Bytes) (key : String) : Bytes :=
  ((lines text).findSome? (lastMatch fun s => (afterKey key s).bind (between 0x22 0x22))).getD []

def jsonNum (text : Bytes) (key : String) : Bytes :=
  ((lines text).findSome? (lastMatch fun s => (afterKey key s).bind digits)).getD []

/-- `REG`: one line for each line of the record that has an object there. -/
def registrationText (record : Bytes) : Bytes :=
  [0x0A].intercalate ((lines record).filterMap
    (lastMatch fun s => (afterKey "registration" s).bind (between 0x7B 0x7D)))

/-- `grep -Eq` on what `printf '%s'` prints. -/
def matchesRe (pattern : Bytes → Bool) (s : Bytes) : Bool := s != [] && (lines s).any pattern

-- ---------------------------------------------------------------------------
-- Encodings
-- ---------------------------------------------------------------------------

def hexof (s : Bytes) : Bytes := Hex.ofBytes s

/-- The loop of awk takes two digits at a time. `index` finds the empty text of a
digit that is missing at 0, one below the first digit. -/
def unhex : Bytes → Bytes
  | a :: b :: rest => UInt8.ofNat (Hex.value a * 16 + Hex.value b) :: unhex rest
  | [a] => [UInt8.ofNat (Hex.value a * 16 + 255)]
  | [] => []

def u32 (n : Nat) : Bytes := Hex.number 8 n

def isOctal (c : UInt8) : Bool := 0x30 ≤ c && c ≤ 0x37

/-- A numeric argument of `printf`: a C constant, as far as it is one. -/
def cConstant : Bytes → Nat
  | 0x30 :: rest => (rest.takeWhile isOctal).foldl (fun n c => 8 * n + (c.toNat - 0x30)) 0
  | s => Decimal.value (s.takeWhile Decimal.isDigit)

/-- `printf '%016x'`; what does not fit is the largest number. -/
def u64 (s : Bytes) : Bytes := Hex.number 16 (min (cConstant s) (2 ^ 64 - 1))

def lp (hex : Bytes) : Bytes := u32 (hex.length / 2) ++ hex

def fString (name : String) (v : Bytes) : Bytes := lp (hexof (lit name)) ++ lit "01" ++ lp (hexof v)
def fU64 (name : String) (v : Bytes) : Bytes := lp (hexof (lit name)) ++ lit "02" ++ lp (u64 v)
def fBytes (name : String) (hex : Bytes) : Bytes := lp (hexof (lit name)) ++ lit "03" ++ lp hex

def cbe (context : String) (n : Nat) (fields : List Bytes) : Bytes :=
  lp (hexof (lit context)) ++ u32 n ++ fields.flatten

def b32Drain (out : Bytes) (val : Nat) : Nat → Bytes × Nat × Nat
  | bits + 5 => b32Drain (out ++ [Protocol.b32Alphabet.getD (val / 2 ^ bits % 32) 0])
    (val % 2 ^ bits) bits
  | bits => (out, val, bits)

def b32Loop (out : Bytes) (val bits : Nat) : Bytes → Bytes
  | a :: b :: rest =>
    let drained := b32Drain out (val * 256 + (Hex.value a * 16 + Hex.value b)) (bits + 8)
    b32Loop drained.1 drained.2.1 drained.2.2 rest
  | _ =>
    if 0 < bits then out ++ [Protocol.b32Alphabet.getD (val * 2 ^ (5 - bits) % 32) 0] else out

def b32FromHex (hex : Bytes) : Bytes := b32Loop [] 0 0 hex

section
variable (T : Tools)

def b64uDecodeHex (s : Bytes) : Bytes :=
  let s := s.map fun c => if c = 0x2D then 0x2B else if c = 0x5F then 0x2F else c
  Hex.ofBytes (T.base64 (s ++ List.replicate ((4 - s.length % 4) % 4) 0x3D))

def hostIDOf (pubHex : Bytes) : Bytes :=
  lit "h_" ++ b32FromHex (Hex.ofBytes ((T.sha256 (unhex pubHex)).take 20))

def ed25519VerifyHex (pub msg sig : Bytes) : Bool :=
  T.ed25519Verify (unhex pub) (unhex msg) (unhex sig)

end

-- ---------------------------------------------------------------------------
-- The host record
-- ---------------------------------------------------------------------------

structure Vars where
  regVersion : Bytes
  regHostID : Bytes
  regPubHex : Bytes
  caPub : Bytes
  hostKey : Bytes
  host : Bytes
  port : Bytes
  user : Bytes
  regTS : Bytes
  regNonceHex : Bytes
  regSigHex : Bytes
  deriving DecidableEq, Repr

def isB64 (c : UInt8) : Bool := c ∈ Protocol.b64Alphabet

/-- The pattern `^ssh-ed25519 [A-Za-z0-9+/]+=*$`. -/
def keyLineRe (s : Bytes) : Bool :=
  let body := (s.drop 12).dropWhile isB64
  (lit "ssh-ed25519 ").isPrefixOf s && body.length < (s.drop 12).length && body.all (· == 0x3D)

/-- The pattern `^[][A-Za-z0-9._:][][A-Za-z0-9._:-]{0,252}$`. -/
def hostRe : Bytes → Bool
  | [] => false
  | c :: rest => Protocol.isHostnameChar c && c != 0x2D && decide (rest.length ≤ 252) &&
      rest.all Protocol.isHostnameChar

/-- The pattern `^[0-9]{1,5}$`. -/
def portRe (s : Bytes) : Bool :=
  decide (1 ≤ s.length) && decide (s.length ≤ 5) && s.all Decimal.isDigit

def Vars.cbe (v : Vars) (hostID : Bytes) : Bytes :=
  Shell.cbe "grantd/v1/host-register" 10 [
    fU64 "version" (lit "1"),
    fString "host_id" hostID,
    fBytes "identity_public_key" v.regPubHex,
    fString "ssh_ca_public_key" v.caPub,
    fString "ssh_host_public_key" v.hostKey,
    fString "hostname" v.host,
    fU64 "ssh_port" v.port,
    fString "ssh_user" v.user,
    fU64 "timestamp" v.regTS,
    fBytes "nonce" v.regNonceHex]

variable (T : Tools)

def extract (record : Bytes) : Vars :=
  let reg := registrationText record
  { regVersion := jsonNum reg "version"
    regHostID := jsonStr reg "host_id"
    regPubHex := b64uDecodeHex T (jsonStr reg "identity_public_key")
    caPub := jsonStr reg "ssh_ca_public_key"
    hostKey := jsonStr reg "ssh_host_public_key"
    host := jsonStr reg "hostname"
    port := jsonNum reg "ssh_port"
    user := jsonStr reg "ssh_user"
    regTS := jsonNum reg "timestamp"
    regNonceHex := b64uDecodeHex T (jsonStr reg "nonce")
    regSigHex := b64uDecodeHex T (jsonStr record "signature") }

/-- The checks of the record; an error is what `die` prints. -/
def check (hostID : Bytes) (v : Vars) : Except Bytes Unit := do
  ensure (v.regVersion == lit "1")
    (lit "host registration has protocol version '" ++ v.regVersion ++ lit "'")
  ensure (v.regHostID == hostID) (lit "host record is for a different host")
  ensure (hostIDOf T v.regPubHex == hostID) (lit "host identity key does not match the host id")
  ensure (matchesRe keyLineRe v.caPub) (lit "host record carries a malformed SSH CA key")
  ensure (matchesRe keyLineRe v.hostKey) (lit "host record carries no usable SSH host key")
  ensure (v.hostKey != v.caPub) (lit "host record uses its CA key as its host key")
  ensure (matchesRe hostRe v.host) (lit "host record carries a malformed hostname")
  ensure (matchesRe portRe v.port && 1 ≤ Decimal.value v.port && Decimal.value v.port ≤ 65535)
    (lit "host record carries a bad port")
  ensure (matchesRe Protocol.usernameRe v.user) (lit "host record carries a bad user name")
  ensure (v.user != lit "root") (lit "host record names root")
  ensure (ed25519VerifyHex T v.regPubHex (v.cbe hostID) v.regSigHex)
    (lit "host registration signature does not verify")

-- ---------------------------------------------------------------------------
-- The encoder
-- ---------------------------------------------------------------------------

theorem unhex_ofBytes (b : Bytes) : unhex (Hex.ofBytes b) = b := by
  induction b with
  | nil => rfl
  | cons x xs ih =>
    have hx := x.toNat_lt
    rw [Hex.ofBytes, List.flatMap_cons, ← Hex.ofBytes]
    simp only [Hex.ofByte, List.cons_append, List.nil_append, unhex, ih, Hex.value_digit (by omega :
      x.toNat / 16 < 16), Hex.value_digit (by omega : x.toNat % 16 < 16)]
    rw [show x.toNat / 16 * 16 + x.toNat % 16 = x.toNat by omega, UInt8.ofNat_toNat]

theorem lp_ofBytes (h : b.length < 2 ^ 32) :
    lp (Hex.ofBytes b) = Hex.ofBytes (Canonical.writeLP b) := by
  have hlen : (Hex.ofBytes b).length / 2 = b.length := by
    rw [Hex.length_ofBytes]
    omega
  have hnum : u32 b.length = Hex.ofBytes (Canonical.u32be b.length) := by
    rw [u32, Canonical.u32be, Nat.mod_eq_of_lt h]
    exact Hex.number_eq (w := 4) (by simpa using h)
  rw [lp, hlen, hnum, Canonical.writeLP, Hex.ofBytes_append]

def printed (s : Bytes) : Nat := min (cConstant s) (2 ^ 64 - 1)

theorem printed_lt (s : Bytes) : printed s < 2 ^ 64 := by
  unfold printed
  omega

theorem u64_eq (s : Bytes) : u64 s = Hex.ofBytes (Code.bigEndian 8 (printed s)) :=
  Hex.number_eq (w := 8) (printed_lt s)

theorem cConstant_eq (hs : ∀ c ∈ s, Decimal.isDigit c = true) (h : s.head? ≠ some 0x30) :
    cConstant s = Decimal.value s := by
  unfold cConstant
  split
  · exact absurd rfl h
  · rw [List.takeWhile_eq_self_iff.mpr hs]

theorem printed_text (h : n < 2 ^ 64) : printed (Decimal.text n) = n := by
  by_cases hn : n = 0
  · subst hn
    decide
  · rw [printed, cConstant_eq (fun c hc => Decimal.isDigit_of_mem_text hc) (Decimal.head_text hn),
      Decimal.value_text]
    omega

theorem item_eq {tag : UInt8} {text : Bytes} (hname : name.length < 2 ^ 32)
    (hv : v.length < 2 ^ 32) (htag : text = Hex.ofBytes [tag]) :
    lp (hexof name) ++ text ++ lp (Hex.ofBytes v) =
      Hex.ofBytes (Canonical.Item.bytes (name, tag, v)) := by
  rw [hexof, lp_ofBytes hname, lp_ofBytes hv, htag, Canonical.Item.bytes, Hex.ofBytes_append,
    Hex.ofBytes_append, List.append_assoc]

theorem fString_eq (hname : (lit name).length < 2 ^ 32) (hv : v.length < 2 ^ 32) :
    fString name v = Hex.ofBytes (Canonical.Item.bytes (lit name, Canonical.tagString, v)) :=
  item_eq hname hv (by decide)

theorem fU64_eq (hname : (lit name).length < 2 ^ 32) (v : Bytes) : fU64 name v =
    Hex.ofBytes (Canonical.Item.bytes (lit name, Canonical.tagU64,
      Code.bigEndian 8 (printed v))) := by
  rw [fU64, u64_eq]
  exact item_eq hname (by rw [Code.length_bigEndian]; decide) (by decide)

theorem fBytes_eq (hname : (lit name).length < 2 ^ 32) (hv : v.length < 2 ^ 32) :
    fBytes name (Hex.ofBytes v) =
      Hex.ofBytes (Canonical.Item.bytes (lit name, Canonical.tagBytes, v)) :=
  item_eq hname hv (by decide)

def Vars.values (v : Vars) (hostID pub nonce : Bytes) : RegValues where
  version := 1
  hostID
  identityPublicKey := pub
  sshCAPublicKey := v.caPub
  sshHostPublicKey := v.hostKey
  hostname := v.host
  sshPort := printed v.port
  sshUser := v.user
  timestamp := printed v.regTS
  nonce

theorem cbe_eq {v : Vars} (hpub : v.regPubHex = Hex.ofBytes pub)
    (hnonce : v.regNonceHex = Hex.ofBytes nonce) (hfit : (v.values hostID pub nonce).Fits) :
    v.cbe hostID = Hex.ofBytes (v.values hostID pub nonce).bytes := by
  have hone : printed (lit "1") = 1 := by decide
  have hcontext : lp (hexof (lit "grantd/v1/host-register")) =
      Hex.ofBytes (Canonical.writeLP Protocol.ctxHostRegister) := lp_ofBytes (by decide)
  have hcount : u32 10 = Hex.ofBytes (Canonical.u32be 10) := by decide
  have hflat (items : List Canonical.Item) : (items.map fun it => Hex.ofBytes it.bytes).flatten =
      Hex.ofBytes (items.flatMap Canonical.Item.bytes) := by
    induction items with
    | nil => rfl
    | cons it rest ih =>
      rw [List.map_cons, List.flatten_cons, ih, List.flatMap_cons, Hex.ofBytes_append]
  have hfields := hflat (v.values hostID pub nonce).items
  rw [RegValues.bytes, encodeItems, Hex.ofBytes_append, Hex.ofBytes_append, ← hfields,
    Vars.cbe, cbe, hcontext, hpub, hnonce,
    fU64_eq (by decide), hone, fString_eq (v := hostID) (by decide) hfit.hostID,
    fBytes_eq (v := pub) (by decide) hfit.identityPublicKey,
    fString_eq (v := v.caPub) (by decide) hfit.sshCAPublicKey,
    fString_eq (v := v.hostKey) (by decide) hfit.sshHostPublicKey,
    fString_eq (v := v.host) (by decide) hfit.hostname, fU64_eq (by decide),
    fString_eq (v := v.user) (by decide) hfit.sshUser, fU64_eq (by decide),
    fBytes_eq (v := nonce) (by decide) hfit.nonce, hcount, List.append_assoc]
  rfl

-- ---------------------------------------------------------------------------
-- Identifiers
-- ---------------------------------------------------------------------------

def b32Digit (d : Nat) : UInt8 := Protocol.b32Alphabet.getD d 0

theorem b32Drain_eq (out : Bytes) (val : Nat) (h : bits < 5) :
    b32Drain out val (bits + 8) =
      if bits < 2 then
        (out ++ [b32Digit (val / 2 ^ (bits + 3) % 32)], val % 2 ^ (bits + 3), bits + 3)
      else (out ++ [b32Digit (val / 2 ^ (bits + 3) % 32), b32Digit (val / 2 ^ (bits - 2) % 32)],
        val % 2 ^ (bits - 2), bits - 2) := by
  rcases (by omega : bits = 0 ∨ bits = 1 ∨ bits = 2 ∨ bits = 3 ∨ bits = 4) with
    rfl | rfl | rfl | rfl | rfl
  · rfl
  · rfl
  · simp [b32Drain, b32Digit]
  · have hsecond : val % 64 / 2 % 32 = val / 2 % 32 := by omega
    simp [b32Drain, b32Digit, hsecond]
  · have hsecond : val % 128 / 4 % 32 = val / 4 % 32 := by omega
    simp [b32Drain, b32Digit, hsecond]

theorem b32Loop_eq (bytes out : Bytes) (val bits : Nat) (h : bits < 5) :
    b32Loop out val bits (Hex.ofBytes bytes) =
      out ++ (Rfc4648.quintets val bits bytes).map b32Digit := by
  induction bytes generalizing out val bits with
  | nil =>
    rw [show Hex.ofBytes [] = [] from rfl, b32Loop, Rfc4648.quintets]
    · split
      · rfl
      · simp
    · intro a b rest h
      cases h
  | cons x xs ih =>
    have hx := x.toNat_lt
    have hbyte : Hex.value (Hex.digit (x.toNat / 16)) * 16 + Hex.value (Hex.digit (x.toNat % 16)) =
        x.toNat := by
      rw [Hex.value_digit (by omega), Hex.value_digit (by omega)]
      omega
    rw [show Hex.ofBytes (x :: xs) = Hex.digit (x.toNat / 16) :: Hex.digit (x.toNat % 16) ::
      Hex.ofBytes xs from rfl, b32Loop, hbyte, b32Drain_eq _ _ h, Rfc4648.quintets]
    split
    · simp only
      rw [ih _ _ _ (by omega), List.map_cons, List.append_assoc, List.singleton_append]
    · simp only
      rw [ih _ _ _ (by omega), List.map_cons, List.map_cons, List.append_assoc, List.cons_append,
        List.singleton_append]

theorem b32FromHex_ofBytes (b : Bytes) : b32FromHex (Hex.ofBytes b) = Protocol.b32 b := by
  rw [b32FromHex, b32Loop_eq _ _ _ _ (by decide), Rfc4648.quintets_digits, List.nil_append,
    Protocol.b32, Rfc4648.encode_eq_map]
  rfl

theorem hostIDOf_ofBytes (pub : Bytes) : hostIDOf T (Hex.ofBytes pub) =
    lit "h_" ++ Protocol.b32 ((T.sha256 pub).take 20) := by
  rw [hostIDOf, unhex_ofBytes, b32FromHex_ofBytes]

theorem b64uDecodeHex_b64 (b : Bytes) : b64uDecodeHex T (Protocol.b64 b) = Hex.ofBytes b := by
  have hswap : ((List.range 64).all fun d =>
      (let c := Protocol.b64URLAlphabet.getD d 0
       if c = 0x2D then 0x2B else if c = 0x5F then 0x2F else c) ==
        Protocol.b64Alphabet.getD d 0) = true := by decide
  have hraw : (Protocol.b64 b).map
      (fun c => if c = 0x2D then 0x2B else if c = 0x5F then 0x2F else c) =
      Protocol.rawStdEncoding b := by
    rw [Protocol.b64, Protocol.rawStdEncoding, Rfc4648.encode_eq_map, Rfc4648.encode_eq_map,
      List.map_map]
    refine List.map_congr_left fun d hd => ?_
    have hlt : d < 64 := Rfc4648.digit_lt 6 b d hd
    exact beq_iff_eq.mp (List.all_eq_true.mp hswap d (List.mem_range.mpr hlt))
  rw [b64uDecodeHex]
  simp only [hraw]
  exact congrArg Hex.ofBytes (T.base64_stdEncoding b)

end Grantd.Install.Shell
