import Grantd.Agent.Pinning
import Grantd.Install.Enrolled

/-!
# Where the shell client connects to

The text of the record comes from a service that is not trusted. If Ed25519 is
not broken and no other key has the host's id, a text that passes the checks of
install/redeem.sh carries a registration that the host has signed, and the
script uses its user, hostname and keys. The port is another matter: the script
hands the digits to `printf`, which takes a leading zero for an octal constant,
and to ssh, which does not.
-/

namespace Grantd.Install.Shell

open Base Protocol Signer

-- ---------------------------------------------------------------------------
-- Numerals with a leading zero
-- ---------------------------------------------------------------------------

def octalFrom (acc : Nat) (s : Bytes) : Nat :=
  (s.takeWhile isOctal).foldl (fun n c => 8 * n + (c.toNat - 0x30)) acc

def decimalFrom (acc : Nat) (s : Bytes) : Nat := s.foldl (fun n c => 10 * n + (c.toNat - 0x30)) acc

theorem le_decimalFrom (acc : Nat) (s : Bytes) : acc ≤ decimalFrom acc s := by
  induction s generalizing acc with
  | nil => exact Nat.le_refl acc
  | cons c s ih =>
    have h := ih (10 * acc + (c.toNat - 0x30))
    simp only [decimalFrom, List.foldl_cons] at h ⊢
    omega

theorem octalFrom_le (h : a + k ≤ a') (s : Bytes) : octalFrom a s + k ≤ decimalFrom a' s := by
  induction s generalizing a a' with
  | nil => exact h
  | cons c s ih =>
    have hstep : decimalFrom a' (c :: s) = decimalFrom (10 * a' + (c.toNat - 0x30)) s := rfl
    rw [hstep, octalFrom, List.takeWhile_cons]
    split
    · exact ih (a := 8 * a + (c.toNat - 0x30)) (by omega)
    · have hle := le_decimalFrom (10 * a' + (c.toNat - 0x30)) s
      simp only [List.foldl_nil]
      omega

theorem octalFrom_eq_iff (hs : ∀ c ∈ s, Decimal.isDigit c = true) :
    octalFrom 0 s = decimalFrom 0 s ↔ decimalFrom 0 s < 8 := by
  induction s with
  | nil => simp [octalFrom, decimalFrom]
  | cons c s ih =>
    have hdigit := hs c List.mem_cons_self
    simp only [Decimal.isDigit, Bool.and_eq_true, decide_eq_true_eq,
      UInt8.le_iff_toNat_le] at hdigit
    have h30 : (0x30 : UInt8).toNat = 0x30 := rfl
    have h37 : (0x37 : UInt8).toNat = 0x37 := rfl
    have h39 : (0x39 : UInt8).toNat = 0x39 := rfl
    have hstep : decimalFrom 0 (c :: s) = decimalFrom (c.toNat - 0x30) s := by
      simp [decimalFrom]
    have hoctal : octalFrom 0 (c :: s) =
        if c.toNat ≤ 0x37 then octalFrom (c.toNat - 0x30) s else 0 := by
      by_cases hc : c.toNat ≤ 0x37
      · have ho : isOctal c = true := by
          simp only [isOctal, Bool.and_eq_true, decide_eq_true_eq, UInt8.le_iff_toNat_le]
          omega
        simp [octalFrom, ho, hc]
      · have ho : isOctal c = false := by
          rw [Bool.eq_false_iff]
          intro ho
          simp only [isOctal, Bool.and_eq_true, decide_eq_true_eq, UInt8.le_iff_toNat_le] at ho
          omega
        simp [octalFrom, ho, hc]
    have hle := le_decimalFrom (c.toNat - 0x30) s
    rw [hoctal, hstep]
    split
    · rename_i hc
      -- A zero leaves both sums at zero; behind any other digit they part.
      by_cases hzero : c.toNat = 0x30
      · rw [hzero]
        exact ih fun d hd => hs d (List.mem_cons_of_mem _ hd)
      · cases s with
        | nil =>
          simp only [octalFrom, decimalFrom, List.takeWhile_nil, List.foldl_nil, true_iff]
          omega
        | cons d s =>
          have hbig : 10 * (c.toNat - 0x30) ≤ decimalFrom (c.toNat - 0x30) (d :: s) :=
            Nat.le_trans (Nat.le_add_right _ (d.toNat - 0x30)) (le_decimalFrom _ s)
          have hlt : octalFrom (c.toNat - 0x30) (d :: s) <
              decimalFrom (c.toNat - 0x30) (d :: s) := by
            have hrec : decimalFrom (c.toNat - 0x30) (d :: s) =
                decimalFrom (10 * (c.toNat - 0x30) + (d.toNat - 0x30)) s := rfl
            rw [hrec, octalFrom, List.takeWhile_cons]
            split
            · exact octalFrom_le (a := 8 * (c.toNat - 0x30) + (d.toNat - 0x30))
                (k := 1) (by omega) s
            · have hle' := le_decimalFrom (10 * (c.toNat - 0x30) + (d.toNat - 0x30)) s
              simp only [List.foldl_nil]
              omega
          omega
    · omega

theorem printed_eq_iff (hs : ∀ c ∈ s, Decimal.isDigit c = true) (hmax : Decimal.value s ≤ 65535) :
    printed s = Decimal.value s ↔ s.head? ≠ some 0x30 ∨ Decimal.value s < 8 := by
  by_cases hhead : s.head? = some 0x30
  · obtain ⟨rest, rfl⟩ : ∃ rest, s = 0x30 :: rest := by
      cases s with
      | nil => cases hhead
      | cons c rest => exact ⟨rest, by cases hhead; rfl⟩
    have hvalue : Decimal.value (0x30 :: rest) = decimalFrom 0 rest := rfl
    have hconst : cConstant (0x30 :: rest) = octalFrom 0 rest := rfl
    have hiff := octalFrom_eq_iff fun d hd => hs d (List.mem_cons_of_mem _ hd)
    have hle := octalFrom_le (k := 0) (Nat.le_refl 0) rest
    rw [printed, hconst, hvalue, Nat.min_eq_left (by omega), hiff]
    simp
  · have hnum : printed s = Decimal.value s := by
      rw [printed, cConstant_eq hs hhead]
      omega
    exact iff_of_true hnum (.inl hhead)

-- ---------------------------------------------------------------------------
-- What the extraction leaves
-- ---------------------------------------------------------------------------

theorem lastMatch_eq_some {p : Bytes → Option α} (h : lastMatch p s = some a) :
    ∃ t, p t = some a := by
  induction s with
  | nil => exact ⟨[], h⟩
  | cons c s ih =>
    rw [lastMatch_cons, Option.or_eq_some_iff] at h
    rcases h with h | ⟨-, h⟩
    · exact ih h
    · exact ⟨c :: s, h⟩

theorem jsonNum_digits (text : Bytes) (key : String) :
    ∀ c ∈ jsonNum text key, Decimal.isDigit c = true := by
  intro c hc
  unfold jsonNum at hc
  cases hfound : (lines text).findSome? (lastMatch fun s => (afterKey key s).bind digits) with
  | none =>
    rw [hfound] at hc
    cases hc
  | some ds =>
    rw [hfound] at hc
    obtain ⟨line, -, hline⟩ := List.exists_of_findSome?_eq_some hfound
    obtain ⟨t, ht⟩ := lastMatch_eq_some hline
    obtain ⟨rest, -, hdigits⟩ := Option.bind_eq_some_iff.mp ht
    unfold digits at hdigits
    split at hdigits
    · cases hdigits
    · rename_i hds
      cases hdigits
      exact List.all_eq_true.mp List.all_takeWhile c hc

theorem length_unhex (hex : Bytes) : hex.length ≤ 2 * (unhex hex).length := by
  fun_induction unhex hex with
  | case1 a b rest ih =>
    simp only [List.length_cons]
    omega
  | case2 a => exact Nat.le_succ 1
  | case3 => exact Nat.le_refl 0

theorem length_cbe (v : Vars) (id : Bytes) :
    2 * id.length + v.regPubHex.length + 2 * v.caPub.length + 2 * v.hostKey.length +
      2 * v.host.length +
      2 * v.user.length + v.regNonceHex.length ≤ (v.cbe id).length := by
  simp only [Vars.cbe, cbe, fString, fU64, fBytes, lp, hexof, List.length_append, List.flatten_cons,
    List.flatten_nil, List.length_nil, Hex.length_ofBytes]
  omega

-- ---------------------------------------------------------------------------
-- What the host signed
-- ---------------------------------------------------------------------------

section
variable (T : Tools) (S : Signer) (signed : Set Message)

/-- `signed` are the messages that the identity key of `S` has signed: the
record's signature is good for one of them at most, and no other key with the
host's id is in the record. -/
structure Genuine (record : Bytes) : Prop where
  signature : ∀ msg, T.ed25519Verify S.identity msg (unhex (extract T record).regSigHex) = true →
    ∃ m ∈ signed, m.canonical = .ok msg
  identity : hostIDOf T (extract T record).regPubHex = hostIDOf T (Hex.ofBytes S.identity) →
    (extract T record).regPubHex = Hex.ofBytes S.identity

def Signs (id record : Bytes) (reg : HostRegistration) : Prop :=
  .hostRegistration reg ∈ signed ∧ reg.hostID = id ∧
    reg.canonical = .ok (unhex ((extract T record).cbe id))

end

structure Vars.Names (v : Vars) (reg : HostRegistration) : Prop where
  user : v.user = reg.sshUser
  host : v.host = reg.hostname
  hostKey : v.hostKey = reg.sshHostPublicKey
  caPub : v.caPub = reg.sshCAPublicKey

/-- The port stands in the record without a zero in front, or is below 8. -/
def PortAsWritten (record : Bytes) : Prop :=
  (jsonNum (registrationText record) "ssh_port").head? ≠ some 0x30 ∨
    Decimal.value (jsonNum (registrationText record) "ssh_port") < 8

instance (record : Bytes) : Decidable (PortAsWritten record) := inferInstanceAs (Decidable (_ ∨ _))

theorem extract_pub (T : Tools) (record : Bytes) : ∃ pub nonce,
    (extract T record).regPubHex = Hex.ofBytes pub ∧ (extract T record).regNonceHex =
      Hex.ofBytes nonce :=
  ⟨_, _, rfl, rfl⟩

section
variable {T : Tools} {S : Signer} {signed : Set Message} {id : Bytes}

/-- The bytes that verified are those of one signed registration, whose values
the script has put together. -/
theorem check_signs (hid : hostIDOf T (Hex.ofBytes S.identity) = id)
    (hca : S.sshCAPublicKeyLine.length ≤ maxSSHPubKeyBytes) (hsigned : ∀ m ∈ signed, Signable S m)
    (hgen : Genuine T S signed record) (h : check T id (extract T record) = .ok ()) :
    ∃ reg nonce, Signs T signed id record reg ∧
      (extract T record).values id S.identity nonce = RegValues.ofRegistration reg := by
  simp only [check, bind_eq_ok, ensure_eq_ok, beq_iff_eq] at h
  obtain ⟨_, -, _, -, _, hident, _, -, _, -, _, -, _, -, _, -, _, -, _, -, hverify⟩ := h
  have hpub := hgen.identity (hident.trans hid.symm)
  obtain ⟨-, nonce, -, hnonce⟩ := extract_pub T record
  rw [ed25519VerifyHex, hpub, unhex_ofBytes] at hverify
  obtain ⟨m, hm, hcanon⟩ := hgen.signature _ hverify
  have hsize := (hsigned m hm).size hca
  have hshort := Message.length_canonical hcanon
  have hlong := length_unhex ((extract T record).cbe id)
  have hlen := length_cbe (extract T record) id
  rw [hpub, hnonce, Hex.length_ofBytes, Hex.length_ofBytes] at hlen
  have hfits : ((extract T record).values id S.identity nonce).Fits := {
    version := (by decide : 1 < 2 ^ 64)
    hostID := by simp only [Vars.values]; omega
    identityPublicKey := by simp only [Vars.values]; omega
    sshCAPublicKey := by simp only [Vars.values]; omega
    sshHostPublicKey := by simp only [Vars.values]; omega
    hostname := by simp only [Vars.values]; omega
    sshPort := printed_lt _
    sshUser := by simp only [Vars.values]; omega
    timestamp := printed_lt _
    nonce := by simp only [Vars.values]; omega }
  have hcbe := cbe_eq hpub hnonce hfits
  have hbytes : m.canonical = .ok ((extract T record).values id S.identity nonce).bytes := by
    rw [hcbe, unhex_ofBytes] at hcanon
    exact hcanon
  obtain ⟨reg, rfl, hvalues⟩ := registration_of_bytes hbytes (by omega) hfits
  exact ⟨reg, nonce, ⟨hm, (congrArg RegValues.hostID hvalues).symm, hcanon⟩, hvalues⟩

/-- Whatever text the service returns for the record: if it passes the checks,
its signature is on a registration of the host, and the user, the hostname, the
host key and the CA that the script goes on with are those of that
registration. So is the decimal port number, unless it is written with a zero in
front. -/
theorem shell_connects_as_signed_iff (hid : hostIDOf T (Hex.ofBytes S.identity) = id)
    (hca : parseSSHPublicKey S.parsePublicKey S.sshCAPublicKeyLine = .ok S.ca.publicKey)
    (hsigned : ∀ m ∈ signed, Signable S m) (hgen : Genuine T S signed record)
    (h : check T id (extract T record) = .ok ()) :
    (∃ reg, Signs T signed id record reg ∧ (extract T record).Names reg) ∧
    ((∃ reg, Signs T signed id record reg ∧ (extract T record).Names reg ∧
        Decimal.value (extract T record).port = reg.sshPort.toNat) ↔ PortAsWritten record) := by
  have hline := length_of_parseSSHPublicKey hca
  obtain ⟨reg, nonce, hreg, hvalues⟩ := check_signs hid hline hsigned hgen h
  have hnames : (extract T record).Names reg :=
    ⟨congrArg RegValues.sshUser hvalues, congrArg RegValues.hostname hvalues,
      congrArg RegValues.sshHostPublicKey hvalues, congrArg RegValues.sshCAPublicKey hvalues⟩
  have hport : printed (extract T record).port = reg.sshPort.toNat :=
    congrArg RegValues.sshPort hvalues
  have hmax : Decimal.value (extract T record).port ≤ 65535 := by
    simp only [check, bind_eq_ok, ensure_eq_ok, Bool.and_eq_true] at h
    obtain ⟨_, -, _, -, _, -, _, -, _, -, _, -, _, -, _, ⟨-, hle⟩, -⟩ := h
    exact of_decide_eq_true hle
  have hiff : printed (extract T record).port = Decimal.value (extract T record).port ↔
      PortAsWritten record := printed_eq_iff (jsonNum_digits _ _) hmax
  refine ⟨⟨reg, hreg, hnames⟩, ?_⟩
  rw [← hiff, hport]
  constructor
  · rintro ⟨reg', hreg', -, hvalue⟩
    have hsame : Message.hostRegistration reg' = .hostRegistration reg := by
      have hsize := (hsigned _ hreg'.1).size hline
      exact Message.eq_of_canonical (e := unhex ((extract T record).cbe id)) hreg'.2.2
        hreg.2.2 (by omega)
    cases hsame
    exact hvalue.symm
  · intro hvalue
    exact ⟨reg, hreg, hnames, hvalue.symm⟩

end

namespace Sample

open Signer.Sample Agent.Sample

/-- Ed25519 on the one signature that is looked at. -/
def tools : Tools := { Install.Sample.tools with
  ed25519Verify := fun pub msg sig =>
    pub = sampleHost.identity ∧ sig = registrationSignature ∧
      registered.canonical.toOption = some msg }

def record (port : String) : Bytes :=
  lit "\x7b\"host_id\":\"" ++ registered.hostID ++
    lit "\",\"registration\":\x7b\"version\":1,\"host_id\":\"" ++
    registered.hostID ++ lit "\",\"identity_public_key\":\"" ++ b64 registered.identityPublicKey ++
    lit "\",\"ssh_ca_public_key\":\"" ++ publicSSHLine Signer.Sample.caKey ++
    lit "\",\"ssh_host_public_key\":\"" ++ publicSSHLine hostKey ++
    lit "\",\"hostname\":\"host.example\",\"ssh_port\":" ++ lit port ++
    lit ",\"ssh_user\":\"visitor\",\"timestamp\":1700000000,\"nonce\":\"" ++
      b64 registrationNonce ++
    lit "\"\x7d,\"signature\":\"" ++ b64 registrationSignature ++ lit "\"\x7d"

def vars (port : String) : Vars :=
  { shellVars registered registrationSignature with port := lit port }

theorem extract_record (h : port = "22" ∨ port = "026") :
    extract tools (record port) = vars port := by
  rcases h with rfl | rfl
  · decide +kernel
  · decide +kernel

theorem check_vars (h : port = "22" ∨ port = "026") :
    check tools registered.hostID (vars port) = .ok () := by
  rcases h with rfl | rfl
  · decide +kernel
  · decide +kernel

theorem genuine (h : extract tools (record port) = vars port) :
    Genuine tools sampleHost signed (record port) := by
  refine ⟨fun msg hverify => ⟨.hostRegistration registered, .inl rfl, ?_⟩, fun _ => h ▸ rfl⟩
  simp only [tools, decide_eq_true_eq] at hverify
  obtain ⟨-, -, hmsg⟩ := hverify
  cases hcanon : registered.canonical with
  | error e =>
    rw [hcanon] at hmsg
    cases hmsg
  | ok e =>
    rw [hcanon] at hmsg
    cases hmsg
    exact hcanon

end Sample

theorem shell_connects_as_signed_sample : ∃ reg, Signs Sample.tools Agent.Sample.signed
    Signer.Sample.hostID (Sample.record "22") reg ∧
      (extract Sample.tools (Sample.record "22")).Names reg ∧
      Decimal.value (extract Sample.tools (Sample.record "22")).port = reg.sshPort.toNat := by
  have hextract := Sample.extract_record (.inl rfl)
  have hcheck : check Sample.tools Signer.Sample.hostID
      (extract Sample.tools (Sample.record "22")) = .ok () :=
        hextract ▸ Sample.check_vars (.inl rfl)
  have hca : parseSSHPublicKey Signer.Sample.parsePublicKey (publicSSHLine Signer.Sample.caKey) =
      .ok Signer.Sample.caKey := by decide +kernel
  have hport : jsonNum (registrationText (Sample.record "22")) "ssh_port" =
      (Sample.vars "22").port := by
    rw [← hextract, extract]
  have hid : hostIDOf Sample.tools (Hex.ofBytes Agent.Sample.sampleHost.identity) =
      Signer.Sample.hostID := by decide +kernel
  have hwritten : PortAsWritten (Sample.record "22") := by
    unfold PortAsWritten
    rw [hport]
    decide
  exact (shell_connects_as_signed_iff hid hca Agent.Sample.signable (Sample.genuine hextract)
    hcheck).2.mpr hwritten

/-- The host has signed port 22. A text that says 026 passes every check, and
ssh is told to connect to port 26. -/
theorem shell_connects_elsewhere : check Sample.tools Signer.Sample.hostID
      (extract Sample.tools (Sample.record "026")) = .ok () ∧
    Decimal.value (extract Sample.tools (Sample.record "026")).port = 26 ∧
    ∀ reg, .hostRegistration reg ∈ Agent.Sample.signed → reg.sshPort = 22 := by
  rw [Sample.extract_record (.inr rfl)]
  refine ⟨Sample.check_vars (.inr rfl), by decide, fun reg hreg => ?_⟩
  rcases hreg with hreg | hreg
  · cases hreg
    rfl
  · cases hreg

end Grantd.Install.Shell
